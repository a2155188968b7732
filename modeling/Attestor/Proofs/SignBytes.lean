import Attestor.Chain.Transaction
import Attestor.Proofs.Agreement
import Attestor.Proofs.Reading
import Mathlib.Data.List.Basic

/-!
What a signature covers.

The bytes that are signed are the UTF-8 bytes of a JSON text. Such a text determines the document, and
the document has each field of the transaction under its name, so the bytes determine the transaction:
a signature authorises no other one. In the other direction the message has a canonical form, so the
order in which the members of its objects were written leaves no trace.

A `Draft` is a transaction whose message is still as it was written. `Draft.signBytes_eq_iff`: two drafts
have the same bytes to sign exactly when they agree in every field.
-/

namespace Attestor

/-! ### From bytes to documents -/

theorem utf8_injective {s t : String} (h : s.toUTF8.data.toList = t.toUTF8.data.toList) : s = t := by
  have hd : s.toUTF8.data = t.toUTF8.data := Array.toList_inj.1 h
  have hb : s.toUTF8 = t.toUTF8 := ByteArray.ext hd
  exact String.toByteArray_inj.1 hb

theorem Wire.toText_injective {α : Type} [Wire α]
    (h : Function.Injective (Wire.toJson : α → Json)) :
    Function.Injective (Wire.toText : α → String) :=
  fun _ _ he => h (Json.print_injective he)

end Attestor

namespace Attestor.Json

theorem uint64_toJson_injective : Function.Injective (Wire.toJson : UInt64 → Json) := by
  intro a b h
  have hn : (a.toNat : Int) = b.toNat := Tree.num.inj h
  exact UInt64.toNat_inj.1 (Int.ofNat_inj.1 hn)

theorem list_toJson_injective {α : Type} [Wire α]
    (h : Function.Injective (Wire.toJson : α → Json)) :
    Function.Injective (Wire.toJson : List α → Json) := by
  intro xs ys he
  have hm : xs.map Wire.toJson = ys.map Wire.toJson := Tree.arr.inj he
  exact List.map_injective_iff.2 h hm

theorem document_toJson_injective : Function.Injective (Wire.toJson : Document → Json) := by
  rintro ⟨j, hj⟩ ⟨k, hk⟩ (rfl : j = k)
  rfl

end Attestor.Json

namespace Attestor.Chain

/-! ### From documents to transactions -/

theorem coin_toJson_injective : Function.Injective (Wire.toJson : Coin → Json) := by
  rintro ⟨denom, amount⟩ ⟨denom', amount'⟩ h
  simpa [Wire.toJson] using h

theorem fee_toJson_injective : Function.Injective (Wire.toJson : Fee → Json) := by
  rintro ⟨amount, gas⟩ ⟨amount', gas'⟩ h
  have hl : [("amount", Wire.toJson amount), ("gas_limit", Wire.toJson gas)] =
      [("amount", Wire.toJson amount'), ("gas_limit", Wire.toJson gas')] := Json.Tree.obj.inj h
  simp only [List.cons.injEq, Prod.mk.injEq, true_and, and_true] at hl
  rw [Json.list_toJson_injective coin_toJson_injective hl.1, Json.uint64_toJson_injective hl.2]

/-- The fields of a transaction as they are written, in their order. -/
theorem Transaction.toJson_eq (t : Transaction) : Wire.toJson t = .obj
    [("chain_id", .str t.chainId), ("account_number", Wire.toJson t.accountNumber),
      ("sequence", Wire.toJson t.sequence), ("sender", .str t.sender),
      ("contract", .str t.contract), ("msg", Wire.toJson t.msg), ("fee", Wire.toJson t.fee),
      ("memo", .str t.memo)] := rfl

theorem transaction_toJson_injective : Function.Injective (Wire.toJson : Transaction → Json) := by
  intro a b h
  rw [Transaction.toJson_eq, Transaction.toJson_eq] at h
  simp only [Json.Tree.obj.injEq, List.cons.injEq, Prod.mk.injEq, Json.Tree.str.injEq, true_and,
    and_true] at h
  obtain ⟨chainId, number, sequence, sender, contract, msg, fee, memo⟩ := h
  have number := Json.uint64_toJson_injective number
  have sequence := Json.uint64_toJson_injective sequence
  have msg := Json.document_toJson_injective msg
  have fee := fee_toJson_injective fee
  cases a
  cases b
  simp_all

/-- The bytes determine the transaction. -/
theorem Transaction.signBytes_injective : Function.Injective Transaction.signBytes :=
  fun _ _ h => Wire.toText_injective transaction_toJson_injective (utf8_injective h)

/-! ### Transactions as they are written -/

/-- A transaction with its message as it was written: the members of an object in any order, and of
those with one key the last counts. -/
structure Draft where
  chainId : String
  accountNumber : UInt64
  sequence : UInt64
  sender : String
  contract : String
  msg : Json
  inRange : Json.InRange msg = true
  fee : Fee
  memo : String

namespace Draft

/-- The transaction, with its message in canonical form. -/
def transaction (d : Draft) : Transaction where
  chainId := d.chainId
  accountNumber := d.accountNumber
  sequence := d.sequence
  sender := d.sender
  contract := d.contract
  msg := Document.ofJson d.msg d.inRange
  fee := d.fee
  memo := d.memo

/-- Two drafts agree in every field. -/
structure Agree (a b : Draft) : Prop where
  chainId : a.chainId = b.chainId
  accountNumber : a.accountNumber = b.accountNumber
  sequence : a.sequence = b.sequence
  sender : a.sender = b.sender
  contract : a.contract = b.contract
  msg : Json.Agree a.msg b.msg
  fee : a.fee = b.fee
  memo : a.memo = b.memo

/-- Each transaction is that of a draft. -/
theorem exists_transaction_eq (t : Transaction) : ∃ d : Draft, d.transaction = t :=
  ⟨{ t with msg := t.msg.json, inRange := Json.inRange_of_canonical t.msg.canonical },
    congrArg (fun m => { t with msg := m }) t.msg.ofJson_json⟩

theorem transaction_eq_iff {a b : Draft} : a.transaction = b.transaction ↔ a.Agree b := by
  constructor
  · intro h
    obtain ⟨chainId, number, sequence, sender, contract, msg, fee, memo⟩ := Transaction.mk.inj h
    exact ⟨chainId, number, sequence, sender, contract, (Document.ofJson_eq_iff _ _).1 msg, fee, memo⟩
  · rintro ⟨chainId, number, sequence, sender, contract, msg, fee, memo⟩
    have hm := (Document.ofJson_eq_iff a.inRange b.inRange).2 msg
    simp only [transaction, chainId, number, sequence, sender, contract, hm, fee, memo]

/-- **The bytes to sign cover exactly the transaction.** Two transactions have the same bytes exactly
when they agree in every field, the objects in their messages compared as maps at every depth. -/
theorem signBytes_eq_iff (a b : Draft) :
    a.transaction.signBytes = b.transaction.signBytes ↔ a.Agree b :=
  Transaction.signBytes_injective.eq_iff.trans transaction_eq_iff

end Draft

end Attestor.Chain
