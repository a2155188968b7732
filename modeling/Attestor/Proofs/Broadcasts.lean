import Attestor.Chain.Ledger
import Attestor.Proofs.Submissions

/-!
What consumer loops broadcast. At most one loop is active at a time (`Orderly.exclusive`), and it submits one
verification after the other in the order in which they were taken. So the transactions on the ledger belong
to verifications that were taken from the queue, in the same order and each to one of its own
(`Orderly.carried`). A step of a loop, a loop that is aborted, and further loops on the same submitter keep
that.
-/

namespace Attestor

open Chain (Ledger SignedTransaction)
open Contract (Verification)

variable {σ π : Type}

namespace Submission

/-- The transaction is the one of the verification, signed by the submitter. -/
structure Bears (b : Submitter) (v : Verification) (tx : SignedTransaction) : Prop where
  sender : tx.body.sender = b.signer.address
  contract : tx.body.contract = b.contract
  chainId : tx.body.chainId = b.chainId
  fee : tx.body.fee = b.fee
  memo : tx.body.memo = ""
  msg : tx.body.msg = (Contract.Command.ofVerification v).toDocument
  publicKey : tx.publicKey = b.signer.publicKey
  signature : b.signer.sign tx.body.signBytes = .ok tx.signature

theorem Bears.of_sign {b : Submitter} {v : Verification} {snapshot : Sequence.Snapshot}
    {tx : SignedTransaction} (h : b.sign v snapshot = .ok tx) : Bears b v tx := by
  obtain ⟨hbody, hkey, hsignature⟩ := sign_eq_ok h
  exact
    { sender := by rw [hbody]; rfl
      contract := by rw [hbody]; rfl
      chainId := by rw [hbody]; rfl
      fee := by rw [hbody]; rfl
      memo := by rw [hbody]; rfl
      msg := by rw [hbody]; rfl
      publicKey := hkey
      signature := hsignature }

/-! ### One consumer loop -/

namespace Loop

/-- The verifications that the loop has taken and not broadcast yet. -/
def pending : Loop → List Verification
  | .submitting ⟨v, .begun⟩ => [v]
  | .submitting ⟨v, .numbered _⟩ => [v]
  | .submitting ⟨v, .signed _⟩ => [v]
  | _ => []

/-- What the loop is about to broadcast bears the verification that it submits. -/
def Faithful (b : Submitter) : Loop → Prop
  | .submitting ⟨v, .signed tx⟩ => Bears b v tx
  | _ => True

theorem pending_of_inactive {l : Loop} (h : l.isActive = false) : l.pending = [] := by
  cases l with
  | submitting x => cases h
  | _ => rfl

/-- The transactions on the ledger beyond `base` bear verifications that were taken from the queue, in this
order, and those that wait were taken after them. -/
def Carried (b : Submitter) (base : List SignedTransaction) (waiting : List Verification)
    (s : Shared Ledger σ π) : Prop :=
  ∃ sent : List (Verification × SignedTransaction), s.chain.broadcasts = base ++ sent.map Prod.snd ∧
    (∀ p ∈ sent, Bears b p.1 p.2) ∧ (sent.map Prod.fst ++ waiting).Sublist s.outbound.history

variable {b : Submitter} {base : List SignedTransaction} {s s' : Shared Ledger σ π}

theorem chain_resync {address : String} {answer : Except Chain.Failure Sequence.Snapshot}
    (h : s.resync Ledger.client address = (answer, s')) : s'.chain = s.chain := by
  unfold Shared.resync Sequence.resync Ledger.client at h
  dsimp only at h
  split at h
  next heq =>
    cases h
    exact (congrArg Prod.snd heq).symm
  next heq =>
    cases h
    exact (congrArg Prod.snd heq).symm

theorem chain_current {address : String} {answer : Except Chain.Failure Sequence.Snapshot}
    (h : s.current Ledger.client address = (answer, s')) : s'.chain = s.chain := by
  cases hcache : s.sequence with
  | some snapshot =>
    simp only [Shared.current, Sequence.current, hcache] at h
    cases h
    rfl
  | none =>
    simp only [Shared.current, Sequence.current, hcache] at h
    exact chain_resync (by rw [Shared.resync, hcache]; exact h)

theorem broadcasts_broadcast (tx : SignedTransaction) :
    (b.broadcast Ledger.client tx s).2.chain.broadcasts = s.chain.broadcasts ++ [tx] := by
  rw [← Ledger.broadcasts_broadcast]
  unfold Submitter.broadcast
  split
  next h => exact congrArg (Ledger.broadcasts ∘ Prod.snd) h.symm
  next h => exact congrArg (Ledger.broadcasts ∘ Prod.snd) h.symm

/-- What waits may be given up. -/
theorem Carried.dropped {waiting : List Verification} (h : Carried b base waiting s) :
    Carried b base [] s := by
  obtain ⟨sent, hsent, hbears, hsub⟩ := h
  refine ⟨sent, hsent, hbears, ?_⟩
  rw [List.append_nil]
  exact (List.sublist_append_left _ _).trans hsub

theorem Carried.congr {waiting : List Verification} (h : Carried b base waiting s)
    (hbroadcasts : s'.chain.broadcasts = s.chain.broadcasts)
    (hhistory : s'.outbound.history = s.outbound.history) : Carried b base waiting s' := by
  obtain ⟨sent, hsent, hbears, hsub⟩ := h
  exact ⟨sent, hbroadcasts ▸ hsent, hbears, hhistory ▸ hsub⟩

/-- A verification is taken from the queue. -/
theorem Carried.take (h : Carried b base [] s) {v : Verification} {outbound : Queue Verification}
    (hq : s.outbound.next? = some (v, outbound)) : Carried b base [v] { s with outbound } := by
  obtain ⟨sent, hsent, hbears, hsub⟩ := h
  refine ⟨sent, hsent, hbears, ?_⟩
  rw [List.append_nil] at hsub
  show (sent.map Prod.fst ++ [v]).Sublist outbound.history
  rw [(Queue.of_next? hq).2.2]
  exact hsub.append (List.Sublist.refl [v])

/-- The transaction of the verification that waits is broadcast. -/
theorem Carried.broadcast {v : Verification} {tx : SignedTransaction} (h : Carried b base [v] s)
    (hv : Bears b v tx) : Carried b base [] (b.broadcast Ledger.client tx s).2 := by
  obtain ⟨sent, hsent, hbears, hsub⟩ := h
  refine ⟨sent ++ [(v, tx)], ?_, fun p hp => ?_, ?_⟩
  · rw [broadcasts_broadcast, hsent, List.map_append, List.append_assoc]
    rfl
  · rcases List.mem_append.mp hp with hp | hp
    · exact hbears p hp
    · obtain rfl := List.mem_singleton.mp hp
      exact hv
  · rw [outbound_broadcast, List.append_nil, List.map_append]
    exact hsub

/-- A step of a submission. -/
theorem Carried.submission {x x' : Submission} (h : Carried b base (pending (.submitting x)) s)
    (hx : Submission.Change b Ledger.client x s x' s') (hf : Faithful b (.submitting x)) :
    Carried b base (pending (.submitting x')) s' ∧ Faithful b (.submitting x') := by
  have hhistory := congrArg Queue.history hx.outbound
  obtain ⟨v, stage⟩ := x
  cases hx with
  | numbered hs hcurrent =>
    obtain rfl : stage = .begun := hs
    exact ⟨h.congr (congrArg Ledger.broadcasts (chain_current hcurrent)) hhistory, trivial⟩
  | unnumbered hs hcurrent =>
    exact ⟨h.dropped.congr (congrArg Ledger.broadcasts (chain_current hcurrent)) hhistory, trivial⟩
  | signed hs ht =>
    obtain rfl : stage = .numbered _ := hs
    exact ⟨h, Bears.of_sign ht⟩
  | unsigned hs ht => exact ⟨h.dropped, trivial⟩
  | broadcast hs hb =>
    obtain rfl : stage = .signed _ := hs
    refine ⟨?_, trivial⟩
    have hsent := h.broadcast hf
    rw [hb] at hsent
    exact hsent
  | @told answer outcome hs ho =>
    obtain rfl : stage = .answered answer := hs
    cases hsuccess : outcome.isSuccess <;> simp only [Bool.false_eq_true, if_true, if_false] <;>
      exact ⟨h, trivial⟩
  | resynced hs hresync =>
    exact ⟨h.dropped.congr (congrArg Ledger.broadcasts (chain_resync hresync)) hhistory, trivial⟩
  | unsynced hs hresync =>
    exact ⟨h.dropped.congr (congrArg Ledger.broadcasts (chain_resync hresync)) hhistory, trivial⟩
  | complained hs => exact ⟨h.dropped, trivial⟩

variable {cancelled closed : Bool} {l l' : Loop}

/-- A step of a loop. -/
theorem Change.carried (hl : Change b Ledger.client cancelled closed l s l' s')
    (h : Carried b base l.pending s) (hf : l.Faithful b) :
    Carried b base l'.pending s' ∧ l'.Faithful b := by
  cases hl with
  | declined hl hs => exact ⟨h.dropped, trivial⟩
  | admitted hl hs => exact ⟨h.dropped, trivial⟩
  | leased hl hc => exact ⟨h.dropped, trivial⟩
  | dismissed hl hc => exact ⟨h.dropped, trivial⟩
  | finished hl hc hq => exact ⟨h.dropped, trivial⟩
  | took hl hc hq => exact ⟨h.dropped.take hq, trivial⟩
  | submitted hl hx => exact ⟨h.dropped, trivial⟩
  | advanced hl hx =>
    subst hl
    exact h.submission hx hf

/-! ### Several loops on one submitter -/

/-- At most one of the loops is active, and what they broadcast is carried. -/
structure Orderly (b : Submitter) (base : List SignedTransaction) (ls : List Loop)
    (s : Shared Ledger σ π) : Prop where
  exclusive : ls.countP isActive = s.submitting.toNat
  faithful : ∀ l ∈ ls, l.Faithful b
  carried : Carried b base (ls.flatMap pending) s

/-- Where the others are inactive, only one loop has something pending. -/
theorem flatMap_pending {before after : List Loop} (h : (before ++ after).countP isActive = 0)
    (l : Loop) : (before ++ l :: after).flatMap pending = l.pending := by
  have hquiet : ∀ x ∈ before ++ after, x.pending = [] := fun x hx =>
    pending_of_inactive (Bool.eq_false_iff.mpr (List.countP_eq_zero.mp h x hx))
  have hbefore : before.flatMap pending = [] :=
    List.flatMap_eq_nil_iff.mpr fun x hx => hquiet x (List.mem_append_left after hx)
  have hafter : after.flatMap pending = [] :=
    List.flatMap_eq_nil_iff.mpr fun x hx => hquiet x (List.mem_append_right before hx)
  rw [List.flatMap_append, List.flatMap_cons, hbefore, hafter, List.nil_append, List.append_nil]

/-- A loop with nothing pending does not count. -/
theorem flatMap_pending_middle {before after : List Loop} {l : Loop} (h : l.pending = []) :
    (before ++ l :: after).flatMap pending = (before ++ after).flatMap pending := by
  rw [List.flatMap_append, List.flatMap_append, List.flatMap_cons, h, List.nil_append]

variable {ls before after : List Loop}

theorem Orderly.submitting_of_active (h : Orderly b base (before ++ l :: after) s)
    (hactive : l.isActive = true) : s.submitting = true ∧ (before ++ after).countP isActive = 0 := by
  have hcount := h.exclusive
  rw [countP_middle, hactive] at hcount
  have hle := Bool.toNat_le s.submitting
  have htrue : Bool.toNat true = 1 := rfl
  refine ⟨?_, by omega⟩
  cases hs : s.submitting with
  | true => rfl
  | false =>
    rw [hs] at hcount
    have hfalse : Bool.toNat false = 0 := rfl
    omega

/-- One of the loops makes a step. -/
theorem Orderly.step (h : Orderly b base (before ++ l :: after) s)
    (hl : Change b Ledger.client cancelled closed l s l' s') :
    Orderly b base (before ++ l' :: after) s' := by
  have hfaithful := h.faithful l (List.mem_append_right before (List.mem_cons_self ..))
  have hstep : Carried b base ((before ++ l' :: after).flatMap pending) s' ∧ l'.Faithful b := by
    by_cases hactive : l.isActive = true
    · have hothers := (h.submitting_of_active hactive).2
      have hcarried := h.carried
      rw [flatMap_pending hothers] at hcarried ⊢
      exact hl.carried hcarried hfaithful
    · -- an inactive loop can do no more than turn to the queue, or turn away
      have hcarried := h.carried
      rw [flatMap_pending_middle (pending_of_inactive (Bool.eq_false_iff.mpr hactive))] at hcarried
      cases hl with
      | declined hl hs => exact ⟨by rw [flatMap_pending_middle rfl]; exact hcarried, trivial⟩
      | admitted hl hs => exact ⟨by rw [flatMap_pending_middle rfl]; exact hcarried, trivial⟩
      | leased hl hc => exact absurd (by rw [hl]; rfl) hactive
      | dismissed hl hc => exact absurd (by rcases hl with rfl | rfl <;> rfl) hactive
      | finished hl hc hq => exact absurd (by rw [hl]; rfl) hactive
      | took hl hc hq => exact absurd (by rw [hl]; rfl) hactive
      | submitted hl hx => exact absurd (by rw [hl]; rfl) hactive
      | advanced hl hx => exact absurd (by rw [hl]; rfl) hactive
  refine ⟨?_, fun x hx => ?_, hstep.1⟩
  · have hbalance := hl.balance fun hactive => (h.submitting_of_active hactive).1
    have hcount := h.exclusive
    rw [countP_middle] at hcount ⊢
    omega
  · rcases List.mem_append.mp hx with hx | hx
    · exact h.faithful x (List.mem_append_left _ hx)
    · rcases List.mem_cons.mp hx with rfl | hx
      · exact hstep.2
      · exact h.faithful x (List.mem_append_right before (List.mem_cons_of_mem l hx))

/-- A loop that is not active is left out. -/
theorem Orderly.leaveOut (h : Orderly b base (before ++ l :: after) s) (hl : l.isActive = false) :
    Orderly b base (before ++ after) s := by
  refine ⟨?_, fun x hx => h.faithful x ?_, ?_⟩
  · have hcount := h.exclusive
    rw [countP_middle, hl] at hcount
    exact hcount
  · rcases List.mem_append.mp hx with hx | hx
    · exact List.mem_append_left _ hx
    · exact List.mem_append_right before (List.mem_cons_of_mem l hx)
  · have hcarried := h.carried
    rw [flatMap_pending_middle (pending_of_inactive hl)] at hcarried
    exact hcarried

/-- A loop that is not active is put in. -/
theorem Orderly.putIn (h : Orderly b base (before ++ after) s) (hl : l.isActive = false) :
    Orderly b base (before ++ l :: after) s := by
  refine ⟨?_, fun x hx => ?_, ?_⟩
  · rw [countP_middle, hl]
    exact h.exclusive
  · rcases List.mem_append.mp hx with hx | hx
    · exact h.faithful x (List.mem_append_left after hx)
    · rcases List.mem_cons.mp hx with rfl | hx
      · cases x with
        | submitting x => cases hl
        | _ => trivial
      · exact h.faithful x (List.mem_append_right before hx)
  · rw [flatMap_pending_middle (pending_of_inactive hl)]
    exact h.carried

/-- One of the loops is aborted. -/
theorem Orderly.abort (h : Orderly b base (before ++ l :: after) s) :
    Orderly b base (before ++ .over :: after) (l.abort s) := by
  unfold Loop.abort
  split
  next hactive =>
    obtain ⟨hsubmitting, hothers⟩ := h.submitting_of_active hactive
    have hcarried := h.carried
    rw [flatMap_pending hothers] at hcarried
    refine ⟨?_, fun x hx => ?_, ?_⟩
    · rw [countP_middle, hothers]
      rfl
    · rcases List.mem_append.mp hx with hx | hx
      · exact h.faithful x (List.mem_append_left _ hx)
      · rcases List.mem_cons.mp hx with rfl | hx
        · trivial
        · exact h.faithful x (List.mem_append_right before (List.mem_cons_of_mem l hx))
    · rw [flatMap_pending hothers]
      exact hcarried.dropped
  next hactive => exact (h.leaveOut (Bool.eq_false_iff.mpr hactive)).putIn rfl

end Loop

end Submission

end Attestor
