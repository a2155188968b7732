import Attestor.Chain.Ledger
import Attestor.Proofs.Submissions

/-!
Exchanges with a ledger. A recorded ledger keeps the account queries and the broadcasts that it answered, each
with its answer, beside the ledger itself. A submitter cannot tell the two apart: forgetting the record turns what
it does with the one into what it does with the other (`forget_run`). So whatever is proved about the record
is about the ledger.
-/

namespace Attestor

open Chain (Ledger Client SignedTransaction Receipt)
open Contract (Verification)

variable {χ χ' σ π : Type}

/-! ### Records -/

namespace Sequence

/-- A question to a ledger about the account, or a broadcast. -/
inductive Exchange where
  | asked (answer : Except Chain.Failure Chain.Account)
  /-- A transaction was broadcast when the ledger stood so. -/
  | sent (before : Ledger) (tx : SignedTransaction) (answer : Except Chain.Failure Receipt)

namespace Exchange

def isSent : Exchange → Bool
  | .sent .. => true
  | .asked _ => false

/-- The ledger accepted a transaction. -/
def isAccepted : Exchange → Bool
  | .sent _ _ (.ok receipt) => receipt.accepted
  | _ => false

/-- The ledger did not tell about the account. -/
def isRefusal : Exchange → Bool
  | .asked (.error _) => true
  | _ => false

/-- The sequence of a transaction that the ledger accepted. -/
def acceptedSequence? : Exchange → Option UInt64
  | .sent _ tx (.ok receipt) => if receipt.accepted then some tx.body.sequence else none
  | _ => none

theorem isSome_acceptedSequence? (x : Exchange) : x.acceptedSequence?.isSome = x.isAccepted := by
  match x with
  | .asked _ => rfl
  | .sent _ _ (.error _) => rfl
  | .sent _ _ (.ok receipt) =>
    simp only [acceptedSequence?, isAccepted]
    cases receipt.accepted <;> rfl

theorem of_acceptedSequence? {x : Exchange} {k : UInt64} (h : x.acceptedSequence? = some k) :
    ∃ before tx answer, x = .sent before tx answer ∧ k = tx.body.sequence := by
  match x with
  | .asked _ => cases h
  | .sent _ _ (.error _) => cases h
  | .sent before tx (.ok receipt) =>
    simp only [acceptedSequence?] at h
    split at h
    · exact ⟨before, tx, _, rfl, (Option.some.inj h).symm⟩
    · cases h

/-- The transaction that was broadcast. -/
def tx? : Exchange → Option SignedTransaction
  | .sent _ tx _ => some tx
  | .asked _ => none

/-- The drift after an exchange. -/
def drifts (n : Nat) : Exchange → Nat
  | .asked (.ok _) => 0
  | .asked (.error _) => n
  | .sent _ _ (.ok receipt) => if receipt.accepted then n else n + 1
  | .sent _ _ (.error _) => n + 1

end Exchange

/-- How many transactions were broadcast. -/
def sends (xs : List Exchange) : Nat := xs.countP Exchange.isSent

/-- How many transactions were accepted. -/
def accepted (xs : List Exchange) : Nat := xs.countP Exchange.isAccepted

/-- How many transactions were not accepted since the ledger last told about the account. -/
def drift (xs : List Exchange) : Nat := xs.foldl Exchange.drifts 0

/-- The ledger told about the account whenever it was asked. -/
def Untroubled (xs : List Exchange) : Prop := ∀ x ∈ xs, x.isRefusal = false

section

variable (xs : List Exchange) (x : Exchange)

@[simp] theorem sends_concat : sends (xs ++ [x]) = sends xs + x.isSent.toNat := by
  rw [sends, List.countP_append, List.countP_singleton]
  cases x.isSent <;> rfl

@[simp] theorem accepted_concat : accepted (xs ++ [x]) = accepted xs + x.isAccepted.toNat := by
  rw [accepted, List.countP_append, List.countP_singleton]
  cases x.isAccepted <;> rfl

@[simp] theorem drift_concat : drift (xs ++ [x]) = x.drifts (drift xs) := by
  rw [drift, List.foldl_append]
  rfl

end

/-- What was accepted, and what the drift counts, are among what was sent. -/
theorem accepted_add_drift_le (xs : List Exchange) : accepted xs + drift xs ≤ sends xs := by
  induction hn : xs.length generalizing xs with
  | zero =>
    obtain rfl := List.eq_nil_of_length_eq_zero hn
    exact Nat.le_refl 0
  | succ n ih =>
    rcases List.eq_nil_or_concat xs with rfl | ⟨ys, x, rfl⟩
    · cases hn
    · rw [List.concat_eq_append] at hn ⊢
      have hys := ih ys (by simpa using hn)
      rw [sends_concat, accepted_concat, drift_concat]
      match x with
      | .asked (.ok _) => simp only [Exchange.isSent, Exchange.isAccepted, Exchange.drifts]; omega
      | .asked (.error _) => simpa [Exchange.isSent, Exchange.isAccepted, Exchange.drifts] using hys
      | .sent _ _ (.ok receipt) =>
        simp only [Exchange.isSent, Exchange.isAccepted, Exchange.drifts, Bool.toNat_true]
        cases receipt.accepted <;> simp <;> omega
      | .sent _ _ (.error _) =>
        simp only [Exchange.isSent, Exchange.isAccepted, Exchange.drifts, Bool.toNat_true, Bool.toNat_false]
        omega

end Sequence

/-! ### Recorded ledgers -/

open Sequence (Exchange)

/-- A ledger with the record of its exchanges. -/
structure Recorded where
  ledger : Ledger
  record : List Exchange

namespace Recorded

/-- Lets the ledger answer, and records what comes of it. -/
def via {α : Type} (f : Ledger → α × Ledger) (note : α → List Exchange) (r : Recorded) : α × Recorded :=
  let (answer, ledger) := f r.ledger
  (answer, ⟨ledger, r.record ++ note answer⟩)

/-- The client of a recorded ledger. -/
def client : Client Recorded where
  resolveAlias name := via (Ledger.client.resolveAlias name) fun _ => []
  scopeRecord contract scope := via (Ledger.client.scopeRecord contract scope) fun _ => []
  account address := via (Ledger.client.account address) fun answer => [.asked answer]
  broadcast tx mode r := via (Ledger.client.broadcast tx mode) (fun answer => [.sent r.ledger tx answer]) r
  events hash := via (Ledger.client.events hash) fun _ => []

/-- Something is done to the ledger from outside. -/
def edit (x : Ledger.Edit) (r : Recorded) : Recorded := { r with ledger := r.ledger.edit x }

end Recorded

/-! ### Clients that cannot be told apart -/

/-- The shared state over another chain. -/
def Shared.mapChain (f : χ → χ') (s : Shared χ σ π) : Shared χ' σ π :=
  { s with chain := f s.chain }

/-- Seen through `f`, the one client answers as the other. -/
structure Chain.Client.Seen (f : χ → χ') (client : Client χ) (client' : Client χ') : Prop where
  account : ∀ address x, client'.account address (f x) =
    ((client.account address x).1, f (client.account address x).2)
  broadcast : ∀ tx mode x, client'.broadcast tx mode (f x) =
    ((client.broadcast tx mode x).1, f (client.broadcast tx mode x).2)

section

variable {f : χ → χ'} {client : Client χ} {client' : Client χ'} (h : Client.Seen f client client')
  (b : Submitter) (address : String) (v : Verification) (s : Shared χ σ π)

include h

theorem Shared.resync_mapChain : (s.mapChain f).resync client' address =
    ((s.resync client address).1, (s.resync client address).2.mapChain f) := by
  have haccount := h.account address s.chain
  simp only [resync, Sequence.resync, mapChain, haccount]
  rcases client.account address s.chain with ⟨_ | _, _⟩ <;> rfl

theorem Shared.current_mapChain : (s.mapChain f).current client' address =
    ((s.current client address).1, (s.current client address).2.mapChain f) := by
  cases hs : s.sequence with
  | some snapshot => simp only [current, Sequence.current, mapChain, hs]
  | none =>
    have hresync := resync_mapChain h address s
    simp only [resync, mapChain, hs] at hresync
    simp only [current, Sequence.current, mapChain, hs]
    exact hresync

theorem Submitter.broadcast_mapChain (tx : SignedTransaction) :
    b.broadcast client' tx (s.mapChain f) =
      ((b.broadcast client tx s).1, (b.broadcast client tx s).2.mapChain f) := by
  have hbroadcast := h.broadcast tx b.mode s.chain
  simp only [broadcast, Shared.mapChain, hbroadcast]
  rcases client.broadcast tx b.mode s.chain with ⟨_ | _, _⟩ <;> rfl

theorem Submitter.attempt_mapChain : b.attempt client' v (s.mapChain f) =
    ((b.attempt client v s).1, (b.attempt client v s).2.mapChain f) := by
  unfold attempt
  rw [s.current_mapChain h]
  rcases s.current client b.signer.address with ⟨_ | snapshot, s⟩
  · rfl
  · dsimp only
    cases b.sign v snapshot with
    | error failure => rfl
    | ok tx => exact b.broadcast_mapChain h s.increment tx

theorem Submitter.recover_mapChain :
    b.recover client' v (s.mapChain f) = (b.recover client v s).mapChain f := by
  unfold recover
  rw [s.resync_mapChain h]
  rcases s.resync client b.signer.address with ⟨_ | _, _⟩ <;> rfl

theorem Submitter.submit_mapChain : b.submit client' v (s.mapChain f) =
    ((b.submit client v s).1, (b.submit client v s).2.mapChain f) := by
  unfold submit
  rw [b.attempt_mapChain h]
  rcases b.attempt client v s with ⟨answer, s⟩
  dsimp only
  split
  · rfl
  · exact congrArg _ (b.recover_mapChain h v (s.publish _))

end

theorem Recorded.seen : Client.Seen Recorded.ledger Recorded.client Ledger.client :=
  ⟨fun _ _ => rfl, fun _ _ _ => rfl⟩

/-! ### Runs of a submitter -/

/-- Something that is done with a submitter and its cache, or to the ledger. -/
inductive Submitter.Operation where
  | submit (v : Verification)
  | reset
  | resync
  | edit (x : Ledger.Edit)

namespace Submitter

/-- Does it. -/
def perform (b : Submitter) (client : Client χ) (edit : Ledger.Edit → χ → χ) (s : Shared χ σ π) :
    Operation → Shared χ σ π
  | .submit v => (b.submit client v s).2
  | .reset => s.reset
  | .resync => (s.resync client b.signer.address).2
  | .edit x => { s with chain := edit x s.chain }

/-- Does one after the other. -/
def performAll (b : Submitter) (client : Client χ) (edit : Ledger.Edit → χ → χ) (s : Shared χ σ π)
    (ops : List Operation) : Shared χ σ π :=
  ops.foldl (b.perform client edit) s

/-- What is done with a recorded ledger is what is done with the ledger. -/
theorem forget_run (b : Submitter) (s : Shared Recorded σ π) (ops : List Operation) :
    (b.performAll Recorded.client Recorded.edit s ops).mapChain Recorded.ledger =
      b.performAll Ledger.client (fun x l => l.edit x) (s.mapChain Recorded.ledger) ops := by
  induction ops generalizing s with
  | nil => rfl
  | cons op ops ih =>
    have hop : (b.perform Recorded.client Recorded.edit s op).mapChain Recorded.ledger =
        b.perform Ledger.client (fun x l => l.edit x) (s.mapChain Recorded.ledger) op := by
      cases op with
      | submit v => exact (congrArg Prod.snd (b.submit_mapChain Recorded.seen v s)).symm
      | reset => rfl
      | resync => exact (congrArg Prod.snd (s.resync_mapChain Recorded.seen b.signer.address)).symm
      | edit x => rfl
    have hrest := ih (b.perform Recorded.client Recorded.edit s op)
    rw [hop] at hrest
    exact hrest

end Submitter

end Attestor
