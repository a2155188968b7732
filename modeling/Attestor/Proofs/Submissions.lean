import Attestor.Submission.Loop

/-!
Changes that a submission and its consumer loop can make. As for the stream task, each row is one thing that a
step can do, with its guard, and a step does one of them (`Submission.step_change`, `Loop.step_change`).
-/

namespace Attestor.Submission

open Contract (Verification)

variable {χ σ π : Type}

/-- What a step can turn a submission that is not over and the shared state into. -/
inductive Change (b : Submitter) (client : Chain.Client χ) (x : Submission) (s : Shared χ σ π) :
    Submission → Shared χ σ π → Prop where
  | numbered {snapshot s'} (hx : x.stage = .begun)
      (hs : s.current client b.signer.address = (.ok snapshot, s')) :
      Change b client x s { x with stage := .numbered snapshot } s'
  | unnumbered {failure s'} (hx : x.stage = .begun)
      (hs : s.current client b.signer.address = (.error failure, s')) :
      Change b client x s { x with stage := .answered (.error (.chain failure)) } s'
  | signed {snapshot tx} (hx : x.stage = .numbered snapshot)
      (ht : b.sign x.verification snapshot = .ok tx) :
      Change b client x s { x with stage := .signed tx } s.increment
  | unsigned {snapshot failure} (hx : x.stage = .numbered snapshot)
      (ht : b.sign x.verification snapshot = .error failure) :
      Change b client x s { x with stage := .answered (.error (.signing failure)) } s
  | broadcast {tx answer s'} (hx : x.stage = .signed tx) (hb : b.broadcast client tx s = (answer, s')) :
      Change b client x s { x with stage := .answered answer } s'
  | told {answer outcome} (hx : x.stage = .answered answer) (ho : outcome = .ofAttempt answer) :
      Change b client x s { x with stage := if outcome.isSuccess then .over outcome else .told outcome }
        (s.publish (.submission x.verification outcome.told))
  | resynced {outcome snapshot s'} (hx : x.stage = .told outcome)
      (hs : s.resync client b.signer.address = (.ok snapshot, s')) :
      Change b client x s { x with stage := .over outcome } s'
  | unsynced {outcome failure s'} (hx : x.stage = .told outcome)
      (hs : s.resync client b.signer.address = (.error failure, s')) :
      Change b client x s { x with stage := .unsynced outcome failure } s'
  | complained {outcome failure} (hx : x.stage = .unsynced outcome failure) :
      Change b client x s { x with stage := .over outcome }
        (s.publish (.submission x.verification (.resyncFailed failure.message)))

/-- A step of a submission that is not over makes one of the changes. -/
theorem step_change (b : Submitter) (client : Chain.Client χ) {x : Submission} (s : Shared χ σ π)
    (h : x.outcome? = none) :
    Change b client x s (x.step b client s).1 (x.step b client s).2 := by
  unfold step
  split
  next hx =>
    split
    next hs => exact .unnumbered hx hs
    next hs => exact .numbered hx hs
  next hx =>
    split
    next ht => exact .unsigned hx ht
    next ht => exact .signed hx ht
  next hx => exact .broadcast hx rfl
  next hx => exact .told hx rfl
  next hx =>
    split
    next hs => exact .resynced hx hs
    next hs => exact .unsynced hx hs
  next hx => exact .complained hx
  next hx => simp [outcome?, hx] at h

/-- A signed transaction is that of the verification, with the key and the signature of the signer. -/
theorem sign_eq_ok {b : Submitter} {v : Verification} {snapshot : Sequence.Snapshot}
    {tx : Chain.SignedTransaction} (h : b.sign v snapshot = .ok tx) :
    tx.body = b.transaction v snapshot ∧ tx.publicKey = b.signer.publicKey ∧
      b.signer.sign tx.body.signBytes = .ok tx.signature := by
  unfold Submitter.sign at h
  dsimp only at h
  cases hsign : b.signer.sign (b.transaction v snapshot).signBytes with
  | error failure =>
    rw [hsign] at h
    cases h
  | ok signature =>
    rw [hsign] at h
    cases h
    exact ⟨rfl, rfl, hsign⟩

@[simp] theorem outbound_broadcast (b : Submitter) (client : Chain.Client χ)
    (tx : Chain.SignedTransaction) (s : Shared χ σ π) :
    (b.broadcast client tx s).2.outbound = s.outbound := by
  unfold Submitter.broadcast
  split <;> rfl

/-- A submission on its way queues nothing and takes nothing. -/
theorem Change.outbound {b : Submitter} {client : Chain.Client χ} {x x' : Submission}
    {s s' : Shared χ σ π} (h : Change b client x s x' s') : s'.outbound = s.outbound := by
  cases h with
  | numbered hx hs => rw [← s.outbound_current client b.signer.address, hs]
  | unnumbered hx hs => rw [← s.outbound_current client b.signer.address, hs]
  | broadcast hx hb => rw [← outbound_broadcast b client _ s, hb]
  | resynced hx hs => rw [← s.outbound_resync client b.signer.address, hs]
  | unsynced hx hs => rw [← s.outbound_resync client b.signer.address, hs]
  | _ => rfl

@[simp] theorem diagnostics_broadcast (b : Submitter) (client : Chain.Client χ)
    (tx : Chain.SignedTransaction) (s : Shared χ σ π) :
    (b.broadcast client tx s).2.diagnostics = s.diagnostics := by
  unfold Submitter.broadcast
  split <;> rfl

@[simp] theorem submitting_broadcast (b : Submitter) (client : Chain.Client χ)
    (tx : Chain.SignedTransaction) (s : Shared χ σ π) :
    (b.broadcast client tx s).2.submitting = s.submitting := by
  unfold Submitter.broadcast
  split <;> rfl

/-- A submission on its way leaves it to its loop whether one is running. -/
theorem Change.submitting {b : Submitter} {client : Chain.Client χ} {x x' : Submission}
    {s s' : Shared χ σ π} (h : Change b client x s x' s') : s'.submitting = s.submitting := by
  cases h with
  | numbered hx hs => rw [← s.submitting_current client b.signer.address, hs]
  | unnumbered hx hs => rw [← s.submitting_current client b.signer.address, hs]
  | broadcast hx hb => rw [← submitting_broadcast b client _ s, hb]
  | resynced hx hs => rw [← s.submitting_resync client b.signer.address, hs]
  | unsynced hx hs => rw [← s.submitting_resync client b.signer.address, hs]
  | _ => rfl

namespace Loop

/-- What a step can turn a consumer loop and the shared state into. -/
inductive Change (b : Submitter) (client : Chain.Client χ) (cancelled closed : Bool) (l : Loop)
    (s : Shared χ σ π) : Loop → Shared χ σ π → Prop where
  /-- Another loop runs. -/
  | declined (hl : l = .called) (hs : s.submitting = true) : Change b client cancelled closed l s .over s
  | admitted (hl : l = .called) (hs : s.submitting = false) :
      Change b client cancelled closed l s .leasing { s with submitting := true }
  | leased (hl : l = .leasing) (hc : cancelled = false) :
      Change b client cancelled closed l s .receiving s
  /-- A cancellation is noticed. -/
  | dismissed (hl : l = .leasing ∨ l = .receiving) (hc : cancelled = true) :
      Change b client cancelled closed l s .over { s with submitting := false }
  /-- Nothing is queued, and nothing more will be. -/
  | finished (hl : l = .receiving) (hc : closed = true) (hq : s.outbound.next? = none) :
      Change b client cancelled closed l s .over { s with submitting := false }
  | took {v outbound} (hl : l = .receiving) (hc : cancelled = false)
      (hq : s.outbound.next? = some (v, outbound)) :
      Change b client cancelled closed l s (.submitting (.begin v)) { s with outbound }
  | submitted {x outcome} (hl : l = .submitting x) (hx : x.outcome? = some outcome) :
      Change b client cancelled closed l s .receiving s
  | advanced {x x' s'} (hl : l = .submitting x) (hx : Submission.Change b client x s x' s') :
      Change b client cancelled closed l s (.submitting x') s'

/-- A step that moves makes one of the changes. -/
theorem step_change {b : Submitter} {client : Chain.Client χ} {cancelled closed : Bool} {l l' : Loop}
    {s s' : Shared χ σ π} (h : l.step b client cancelled closed s = .moved (l', s')) :
    Change b client cancelled closed l s l' s' := by
  unfold step leave at h
  cases l with
  | called =>
    dsimp only at h
    split at h
    next hs => cases h; exact .declined rfl hs
    next hs => cases h; exact .admitted rfl (by simpa using hs)
  | leasing =>
    dsimp only at h
    split at h
    next hc => cases h; exact .dismissed (.inl rfl) hc
    next hc => cases h; exact .leased rfl (by simpa using hc)
  | receiving =>
    dsimp only at h
    split at h
    next hc => cases h; exact .dismissed (.inr rfl) hc
    next hc =>
      split at h
      next hq => cases h; exact .took rfl (by simpa using hc) hq
      next hq =>
        split at h
        next hclosed => cases h; exact .finished rfl hclosed hq
        next => cases h
  | submitting x =>
    dsimp only at h
    split at h
    next hx => cases h; exact .submitted rfl hx
    next hx => cases h; exact .advanced rfl (Submission.step_change b client s hx)
  | «over» => cases h

/-- A consumer loop queues nothing. -/
theorem Change.log {b : Submitter} {client : Chain.Client χ} {cancelled closed : Bool} {l l' : Loop}
    {s s' : Shared χ σ π} (h : Change b client cancelled closed l s l' s') :
    s'.outbound.log = s.outbound.log := by
  cases h with
  | took hl hc hq => exact (Queue.of_next? hq).1
  | advanced hl hx => rw [hx.outbound]
  | _ => rfl

/-! ### Loops beside each other -/

/-- A step begins or ends the loop's activity exactly if it says so to the other loops. -/
theorem Change.balance {b : Submitter} {client : Chain.Client χ} {cancelled closed : Bool} {l l' : Loop}
    {s s' : Shared χ σ π} (hl : Change b client cancelled closed l s l' s')
    (hactive : l.isActive = true → s.submitting = true) :
    l'.isActive.toNat + s.submitting.toNat = l.isActive.toNat + s'.submitting.toNat := by
  cases hl with
  | declined hl hs =>
    subst hl
    rfl
  | admitted hl hs =>
    subst hl
    rw [hs]
    rfl
  | leased hl hc =>
    subst hl
    rfl
  | dismissed hl hc =>
    obtain rfl | rfl := hl <;> rw [hactive rfl] <;> rfl
  | finished hl hc hq =>
    subst hl
    rw [hactive rfl]
    rfl
  | took hl hc hq =>
    subst hl
    rfl
  | submitted hl hx =>
    subst hl
    rfl
  | advanced hl hx =>
    subst hl
    rw [hx.submitting]
    rfl

theorem countP_middle (before : List Loop) (l : Loop) (after : List Loop) :
    (before ++ l :: after).countP isActive = (before ++ after).countP isActive + l.isActive.toNat := by
  rw [List.countP_append, List.countP_append, List.countP_cons, Nat.add_assoc]
  cases l.isActive <;> rfl

end Loop

end Attestor.Submission
