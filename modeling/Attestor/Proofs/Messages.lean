import Attestor.Proofs.RoundTrips
import Attestor.Proofs.SignBytes
import Attestor.Submission
import Mathlib.Data.List.Nodup

/-!
Messages on their way to the chain. A decision is put into a message, the message is arranged for the transaction, and
the text of the transaction is signed. Decoders find the fields of a record by name, so a message is read from its
arranged form as it is from the one that was written (`Orderless`); and since a transaction is read back from the bytes
that are signed, what these bytes say is the decision that was made (`signed_as_decided`).
-/

namespace Attestor

namespace Json

/-! ### Reading what was arranged -/

/-- Values are read from their arranged documents. -/
class Orderless (α : Type) [Wire α] : Prop where
  decode_arrange : ∀ {a : α} {depth : Nat}, nesting (arrange (Wire.toJson a)) ≤ depth →
    Wire.decode depth (read (arrange (Wire.toJson a))) = some a

/-- Where nothing has to be arranged, faithful is enough. -/
theorem Orderless.of_arrange_eq {α : Type} [Wire α] [Faithful α]
    (h : ∀ a : α, arrange (Wire.toJson a) = Wire.toJson a) : Orderless α where
  decode_arrange {a depth} ha := by
    rw [h a] at ha ⊢
    exact Faithful.decode_read ha

instance : Orderless String := .of_arrange_eq fun _ => rfl

instance : Orderless Bool := .of_arrange_eq fun _ => rfl

instance : Orderless (Option String) := .of_arrange_eq fun o => by cases o <;> rfl

section

variable {α : Type} [Wire α]

theorem decodeItems_arrange [Orderless α] {depth : Nat} {as : List α}
    (h : ∀ a ∈ as, nesting (arrange (Wire.toJson a)) ≤ depth) :
    decodeItems (Wire.decode depth) (((as.map Wire.toJson).map arrange).map read) = some as := by
  induction as with
  | nil => rfl
  | cons a as ih =>
    obtain ⟨ha, has⟩ := List.forall_mem_cons.mp h
    rw [List.map_cons, List.map_cons, List.map_cons, decodeItems, Orderless.decode_arrange ha, ih has]
    rfl

instance [Orderless α] : Orderless (List α) where
  decode_arrange {as depth} h := by
    obtain ⟨d, rfl, hitems⟩ := nesting_arr_le_iff.mp h
    rw [arrangeItems_eq_map] at hitems
    have has : ∀ a ∈ as, nesting (arrange (Wire.toJson a)) ≤ d := fun a ha =>
      hitems _ (List.mem_map_of_mem (List.mem_map_of_mem ha))
    show decodeItems (Wire.decode d) (readItems (arrangeItems (as.map Wire.toJson))) = some as
    rw [readItems_eq_map, arrangeItems_eq_map, decodeItems_arrange has]

theorem required_arrange [Orderless α] {a : α} {depth : Nat} (h : nesting (arrange (Wire.toJson a)) ≤ depth) :
    required depth (some (read (arrange (Wire.toJson a)))) = some a :=
  Orderless.decode_arrange h

theorem optional_arrange [Orderless (Option α)] {o : Option α} {depth : Nat}
    (h : nesting (arrange (Wire.toJson o)) ≤ depth) :
    optional depth (some (read (arrange (Wire.toJson o)))) = some o :=
  Orderless.decode_arrange h

end

/-! ### Records -/

theorem nodup_keys_of_ascending {α : Type} {entries : List (String × α)} (h : Entries.Ascending entries) :
    (entries.map Prod.fst).Nodup :=
  List.pairwise_map.mpr (h.imp fun {a b} hlt (heq : a.1 = b.1) => absurd (heq ▸ hlt) (String.lt_irrefl b.1))

section Records

variable {ms : List (String × Json)}

/-- Arranging keeps each member of an object that has no key twice. -/
theorem mem_arrangeMembers (h : (ms.map Prod.fst).Nodup) {m : String × Json} (hm : m ∈ ms) :
    (m.1, arrange m.2) ∈ arrangeMembers ms := by
  apply Entries.mem_of_get?
  rw [get?_arrangeMembers, (lookup_eq_some_iff h).mpr hm, Option.map_some]

theorem nesting_arrange_obj_le (h : (ms.map Prod.fst).Nodup) {depth : Nat}
    (hms : nesting (arrange (.obj ms)) ≤ depth) : ∃ d, depth = d + 1 ∧ ∀ m ∈ ms, nesting (arrange m.2) ≤ d := by
  obtain ⟨d, rfl, hmembers⟩ := nesting_obj_le_iff.mp hms
  exact ⟨d, rfl, fun m hm => hmembers _ (mem_arrangeMembers h hm)⟩

/-- The fields of a record are found where arranging has put them. -/
theorem record_arrange (h : (ms.map Prod.fst).Nodup) (depth : Nat) :
    record (ms.map Prod.fst) (depth + 1) (read (arrange (.obj ms))) =
      some (depth, ms.map fun m => some (read (arrange m.2))) := by
  have hkeys : (readMembers (arrangeMembers ms)).all (·.1.isSome) = true := by
    simp [readMembers_eq_map]
  have hmem : ∀ n ∈ ms.map fun m => (m.1, arrange m.2), n ∈ arrangeMembers ms := fun n hn => by
    obtain ⟨m, hm, rfl⟩ := List.mem_map.mp hn
    exact mem_arrangeMembers h hm
  have hfields := fields?_read (nodup_keys_of_ascending (ascending_arrangeMembers ms)) hmem
  rw [List.map_map, List.map_map] at hfields
  rw [arrange, read, record, if_pos hkeys]
  exact congrArg _ hfields

end Records

end Json

open Json

/-- What a document says. It is read whole, however deep it nests. -/
def Document.read? {α : Type} [Wire α] (d : Document) : Option α :=
  Wire.decode (nesting d.json) (read d.json)

namespace Contract

/-! ### Messages -/

/-- The fields of a route as they are written. -/
def Route.fields (r : Route) : List (String × Json) :=
  [("route", Wire.toJson r.route), ("name", Wire.toJson r.name)]

theorem Route.toJson_eq (r : Route) : Wire.toJson r = .obj r.fields :=
  rfl

instance : Orderless Route where
  decode_arrange {r depth} h := by
    have hnames : ["route", "name"].Nodup := by decide
    have hdistinct : (r.fields.map Prod.fst).Nodup := hnames
    rw [Route.toJson_eq] at h ⊢
    obtain ⟨d, rfl, hfields⟩ := nesting_arrange_obj_le hdistinct h
    have hrecord : record ["route", "name"] (d + 1) (read (arrange (.obj r.fields))) = _ := record_arrange hdistinct d
    simp only [Route.fields, List.forall_mem_cons] at hfields
    simp only [Wire.decode, hrecord, Option.bind_eq_bind, Option.bind_some]
    simp [Route.fields, required_arrange, optional_arrange, hfields]

instance : Orderless AssetIdentifier := .of_arrange_eq fun i => by cases i <;> rfl

namespace Command

theorem arrange_toJson (c : Command) : arrange (Wire.toJson c) = .obj [("verify_asset", arrange (.obj c.fields))] :=
  rfl

instance : Orderless Command where
  decode_arrange {c depth} h := by
    have hnames : ["identifier", "asset_type", "success", "message", "access_routes"].Nodup := by decide
    have hdistinct : (c.fields.map Prod.fst).Nodup := hnames
    rw [arrange_toJson] at h ⊢
    obtain ⟨depth, rfl, hcontent⟩ := nesting_choice_le_iff.mp h
    obtain ⟨d, rfl, hfields⟩ := nesting_arrange_obj_le hdistinct hcontent
    have hrecord : record ["identifier", "asset_type", "success", "message", "access_routes"] (d + 1)
        (read (arrange (.obj c.fields))) = _ := record_arrange hdistinct d
    simp only [fields, List.forall_mem_cons] at hfields
    simp only [Wire.decode, choice_read, Option.bind_eq_bind, Option.bind_some, hrecord]
    simp [fields, required_arrange, optional_arrange, hfields]

theorem read?_toDocument (c : Command) : c.toDocument.read? = some c :=
  Orderless.decode_arrange (Nat.le_refl _)

/-- Different messages have different documents. -/
theorem toDocument_injective : Function.Injective toDocument := fun c d h =>
  Option.some.inj (c.read?_toDocument.symm.trans (h ▸ d.read?_toDocument))

theorem nesting_toJson_route (r : Route) : nesting (Wire.toJson r) = 1 := by
  cases r with
  | mk route name => cases name <;> rfl

/-- Routes lie in a list, the list in the fields, and these under the name of the message. -/
theorem nesting_toJson_le (c : Command) : nesting (Wire.toJson c) ≤ 4 := by
  have hidentifier : nesting (Wire.toJson c.identifier) = 1 := by cases c.identifier <;> rfl
  have hmessage : nesting (Wire.toJson c.message) = 0 := by cases c.message <;> rfl
  have hroutes : nesting (Wire.toJson c.accessRoutes) ≤ 2 := by
    refine nesting_arr_le_iff.mpr ⟨1, rfl, fun j hj => ?_⟩
    obtain ⟨r, -, rfl⟩ := List.mem_map.mp hj
    exact Nat.le_of_eq (nesting_toJson_route r)
  rw [toJson_eq, nesting_choice_le_iff]
  refine ⟨3, rfl, nesting_obj_le_iff.mpr ⟨2, rfl, ?_⟩⟩
  simp only [fields, List.forall_mem_cons, hidentifier, hmessage]
  exact ⟨by decide, Nat.zero_le _, Nat.zero_le _, by decide, hroutes, nofun⟩

theorem nesting_toDocument_le (c : Command) : nesting c.toDocument.json ≤ 4 :=
  Nat.le_trans (nesting_arrange_le _) c.nesting_toJson_le

/-- A message is read from its text as it was declared. -/
theorem ofText_toText (c : Command) : Wire.ofText (Wire.toText c) = some c :=
  ((Faithful.roundTrips Command).written c).mpr (Nat.le_trans c.nesting_toJson_le (by decide : 4 ≤ maxDepth))

/-- A message is read from the text of its document. -/
theorem ofText_toText_toDocument (c : Command) : Wire.ofText (Wire.toText c.toDocument) = some c := by
  rw [Wire.ofText, Wire.toText, parse_print]
  exact Orderless.decode_arrange (Nat.le_trans c.nesting_toDocument_le (by decide : 4 ≤ maxDepth))

end Command

end Contract

namespace Chain

/-! ### Transactions -/

theorem fromUTF8?_toUTF8 (s : String) : String.fromUTF8? ⟨s.toUTF8.data.toList.toArray⟩ = some s := by
  rw [Array.toArray_toList]
  exact dif_pos s.isValidUTF8

/-- What the bytes under a signature say. -/
def Transaction.ofSignBytes? (bytes : List UInt8) : Option Transaction := do
  Wire.ofText (← String.fromUTF8? ⟨bytes.toArray⟩)

/-- Coins lie in a list, and the list in a field of the fee. -/
theorem nesting_toJson_fee_le (f : Fee) : nesting (Wire.toJson f) ≤ 3 := by
  have hcoins : nesting (Wire.toJson f.amount) ≤ 2 := by
    refine nesting_arr_le_iff.mpr ⟨1, rfl, fun j hj => ?_⟩
    obtain ⟨c, -, rfl⟩ := List.mem_map.mp hj
    exact Nat.le_refl 1
  refine nesting_obj_le_iff.mpr ⟨2, rfl, ?_⟩
  simp only [List.forall_mem_cons]
  exact ⟨hcoins, Nat.zero_le _, nofun⟩

theorem Transaction.nesting_toJson_le (t : Transaction) (h : nesting t.msg.json ≤ 4) :
    nesting (Wire.toJson t) ≤ 5 := by
  have hmsg : nesting (Wire.toJson t.msg) ≤ 4 := h
  have hfee : nesting (Wire.toJson t.fee) ≤ 4 := Nat.le_succ_of_le (nesting_toJson_fee_le t.fee)
  have hnumber (n : UInt64) : nesting (Wire.toJson n) = 0 := rfl
  rw [t.toJson_eq]
  refine nesting_obj_le_iff.mpr ⟨4, rfl, ?_⟩
  simp [nesting, hnumber, hmsg, hfee]

/-- A transaction is read from the bytes that are signed, as far as its message nests. -/
theorem Transaction.ofSignBytes?_signBytes (t : Transaction) (h : nesting t.msg.json ≤ 4) :
    ofSignBytes? t.signBytes = some t := by
  have hdepth : nesting (Wire.toJson t) ≤ maxDepth := Nat.le_trans (t.nesting_toJson_le h) (by decide)
  rw [ofSignBytes?, signBytes, fromUTF8?_toUTF8, Option.bind_eq_bind, Option.bind_some]
  exact ((Faithful.roundTrips Transaction).written t).mpr hdepth

end Chain

/-! ### What is signed is what was decided -/

open Contract (Verification Command)

/-- **What is signed is what was decided.** The message of a verification names its scope and says what was decided
about it. That message is read from its own text, from the text of its arranged form in the transaction, and from the
message of the transaction that is read from the bytes that are signed. Two verifications have the same message in
their transactions exactly if they agree in the address of the scope, the type of the asset and all that was decided. -/
theorem signed_as_decided (b : Submitter) (v : Verification) (snapshot : Sequence.Snapshot) :
    (∃ c : Command,
      c = ⟨.scopeAddress v.scope.scopeAddress, v.scope.assetType, v.decision.success, v.decision.message,
        v.decision.accessRoutes⟩ ∧
      Wire.ofText (Wire.toText (Command.ofVerification v)) = some c ∧
      Wire.ofText (Wire.toText (b.transaction v snapshot).msg) = some c ∧
      ∃ t, Chain.Transaction.ofSignBytes? (b.transaction v snapshot).signBytes = some t ∧
        t = b.transaction v snapshot ∧ t.msg.read? = some c) ∧
    ∀ (b' : Submitter) (w : Verification) (snapshot' : Sequence.Snapshot),
      (b.transaction v snapshot).msg = (b'.transaction w snapshot').msg ↔
        v.scope.scopeAddress = w.scope.scopeAddress ∧ v.scope.assetType = w.scope.assetType ∧
          v.decision.success = w.decision.success ∧ v.decision.message = w.decision.message ∧
          v.decision.accessRoutes = w.decision.accessRoutes := by
  refine ⟨⟨Command.ofVerification v, rfl, Command.ofText_toText _, Command.ofText_toText_toDocument _,
    b.transaction v snapshot, ?signed, rfl, Command.read?_toDocument _⟩, fun b' w snapshot' => ?distinct⟩
  case signed => exact Chain.Transaction.ofSignBytes?_signBytes _ (Command.nesting_toDocument_le _)
  case distinct =>
    have hmsg : (b.transaction v snapshot).msg = (b'.transaction w snapshot').msg ↔
        Command.ofVerification v = Command.ofVerification w := Command.toDocument_injective.eq_iff
    rw [hmsg]
    simp only [Command.ofVerification, Command.mk.injEq, Contract.AssetIdentifier.scopeAddress.injEq]

end Attestor
