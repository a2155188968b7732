import Attestor.Proofs.Consumers
import Attestor.Proofs.Effects
import Attestor.Proofs.Transitions

/-!
What the steps of the tasks do to the state that they share. The stream task and the replays only add to it
(`Adds`): they publish diagnostics and queue verifications, and ask collaborators. A consumer loop publishes
diagnostics too. So whatever holds between a state and the one after each single effect holds for every step of
these tasks (`Respected`), and a move changes the shared state in one of a few ways (`Service.shared_change`).
-/

namespace Attestor

variable {χ σ ρ π : Type}

/-! ### Relations that every effect respects -/

/-- The relation holds between a state and the one after an effect of the stream task or of a replay. -/
structure Respected (c : Collaborators χ σ ρ π) (R : Shared χ σ π → Shared χ σ π → Prop) : Prop where
  refl : ∀ s, R s s
  trans : ∀ {s s' s''}, R s s' → R s' s'' → R s s''
  turns : ∀ {x : Handler.Effect} {s s'}, x.Turns c s s' → R s s'
  source : ∀ s source, R s { s with source }
  events : ∀ s hash, R s { s with chain := (c.chain.events hash s.chain).2 }

namespace Respected

variable {c : Collaborators χ σ ρ π} {R : Shared χ σ π → Shared χ σ π → Prop} {s s' : Shared χ σ π}

theorem publish (h : Respected c R) (s : Shared χ σ π) (d : Diagnostic) : R s (s.publish d) :=
  h.turns (x := .publish d) rfl

theorem report (h : Respected c R) (e : Contract.Event) (kind : Contract.EventKind)
    (ending : Handler.Ending) : R s (Routing.report e kind ending s) := by
  unfold Routing.report
  split
  · exact h.refl s
  · exact h.publish s _

theorem agenda (h : Respected c R) {r : Routing.Router} {a a' : Routing.Agenda}
    (hstep : a.step r c s = .moved (a', s')) : R s s' := by
  cases Routing.Agenda.step_change hstep with
  | ended hending => exact h.report ..
  | acted hx hafter hturns => exact h.turns hturns
  | ignored hdirect => exact h.publish s _
  | called hdirect hcall => exact h.refl s

theorem stream (h : Respected c R) {d : Stream.Driver} {cancelled : Bool} {now : Nat}
    {t t' : Stream.Task ρ} (hstep : t.step d c cancelled now s = .moved (t', s')) : R s s' := by
  cases Stream.Task.step_change hstep with
  | handled hp ha => exact h.agenda ha
  | known hp ht => exact h.refl s
  | found hp ht hh => exact h.source s _
  | unknown hp ht hh => exact h.source s _
  | opened hc hp hs => exact h.source s _
  | refused hc hp hs => exact h.source s _
  | broke hc hp hn => exact h.refl s
  | surpassed hp ht => exact h.refl s
  | settled hp ha => exact h.refl s
  | _ => exact h.publish s _

theorem eventsOf {S : Service χ σ ρ π} (h : Respected S.collaborators R) (hash : String)
    (s : Shared χ σ π) : R s (S.eventsOf hash s).2 := by
  have hevents := h.events s hash
  unfold Service.eventsOf
  split
  next heq =>
    rw [heq] at hevents
    exact hevents
  next heq =>
    rw [heq] at hevents
    exact h.trans hevents (h.publish _ _)

end Respected

/-! ### Queues that grow -/

/-- Items were added behind the others, and none was taken. -/
structure Queue.Extends {α : Type} (q q' : Queue α) : Prop where
  history : q'.history = q.history
  log : q.log <+: q'.log

namespace Queue.Extends

variable {α : Type} {q q' q'' : Queue α}

theorem refl (q : Queue α) : q.Extends q := ⟨rfl, List.prefix_refl _⟩

theorem trans (h : q.Extends q') (h' : q'.Extends q'') : q.Extends q'' :=
  ⟨h'.history.trans h.history, h.log.trans h'.log⟩

theorem publish (q : Queue α) (a : α) : q.Extends (q.publish a) :=
  ⟨q.history_publish a, List.prefix_append _ _⟩

end Queue.Extends

/-- Verifications and diagnostics were added to the queues, and everything else that tasks share but the state of
the collaborators is as it was. -/
structure Adds (s s' : Shared χ σ π) : Prop where
  outbound : s.outbound.Extends s'.outbound
  diagnostics : s.diagnostics.Extends s'.diagnostics
  submitting : s'.submitting = s.submitting
  sequence : s'.sequence = s.sequence

namespace Adds

variable {s s' s'' : Shared χ σ π}

/-- Only the state of the collaborators changed. -/
theorem collaborators (s : Shared χ σ π) (chain : χ) (source : σ) (assets : π) :
    Adds s { s with chain, source, assets } :=
  ⟨.refl _, .refl _, rfl, rfl⟩

theorem refl (s : Shared χ σ π) : Adds s s := collaborators s _ _ _

theorem trans (h : Adds s s') (h' : Adds s' s'') : Adds s s'' :=
  ⟨h.outbound.trans h'.outbound, h.diagnostics.trans h'.diagnostics, h'.submitting.trans h.submitting,
    h'.sequence.trans h.sequence⟩

theorem publish (s : Shared χ σ π) (d : Diagnostic) : Adds s (s.publish d) :=
  ⟨.refl _, .publish _ d, rfl, rfl⟩

theorem turns {c : Collaborators χ σ ρ π} {x : Handler.Effect} (h : x.Turns c s s') : Adds s s' := by
  cases x with
  | publish d =>
    rw [show s' = s.publish d from h]
    exact publish s d
  | enqueue v =>
    rw [show s' = s.enqueue v from h]
    exact ⟨.publish _ v, .refl _, rfl, rfl⟩
  | scopeRecord contract scope answer =>
    obtain ⟨chain, -, rfl⟩ := h
    exact collaborators s chain _ _
  | retrieve scope answer =>
    obtain ⟨assets, -, rfl⟩ := h
    exact collaborators s _ _ assets
  | verify scope asset answer =>
    obtain ⟨assets, -, rfl⟩ := h
    exact collaborators s _ _ assets

/-- The stream task and the replays only add. -/
theorem respected (c : Collaborators χ σ ρ π) : Respected c Adds where
  refl := refl
  trans := trans
  turns := turns
  source s source := collaborators s _ source _
  events s _ := collaborators s _ _ _

end Adds

/-! ### Consumer loops -/

/-- Diagnostics were published, and a cached sequence was not forgotten. -/
structure Tells (s s' : Shared χ σ π) : Prop where
  diagnostics : s.diagnostics.Extends s'.diagnostics
  sequence : s.sequence ≠ none → s'.sequence ≠ none

namespace Tells

variable {s s' : Shared χ σ π} {client : Chain.Client χ} {address : String}

theorem refl (s : Shared χ σ π) : Tells s s := ⟨.refl _, id⟩

theorem publish (s : Shared χ σ π) (d : Diagnostic) : Tells s (s.publish d) := ⟨.publish _ d, id⟩

theorem increment (s : Shared χ σ π) : Tells s s.increment :=
  ⟨.refl _, fun h => by simpa [Shared.increment, Sequence.Cache.increment] using h⟩

/-- Asking the chain leaves a cached sequence, or replaces it by the one on the chain. -/
theorem resync {answer : Except Chain.Failure Sequence.Snapshot} (h : s.resync client address = (answer, s')) :
    Tells s s' := by
  unfold Shared.resync Sequence.resync at h
  split at h
  next heq =>
    cases h
    refine ⟨.refl _, fun hs => ?_⟩
    split at heq <;> cases heq
    · exact Option.some_ne_none _
    · exact hs

theorem current {answer : Except Chain.Failure Sequence.Snapshot} (h : s.current client address = (answer, s')) :
    Tells s s' := by
  cases hcache : s.sequence with
  | some snapshot =>
    simp only [Shared.current, Sequence.current, hcache] at h
    cases h
    exact ⟨.refl _, fun _ => Option.some_ne_none _⟩
  | none =>
    simp only [Shared.current, Sequence.current, hcache] at h
    exact resync (by rw [Shared.resync, hcache]; exact h)

theorem broadcast {b : Submitter} {tx : Chain.SignedTransaction} {answer : Except Error Chain.Receipt}
    (h : b.broadcast client tx s = (answer, s')) : Tells s s' := by
  unfold Submitter.broadcast at h
  split at h <;> cases h <;> exact ⟨.refl _, id⟩

end Tells

namespace Submission

variable {b : Submitter} {client : Chain.Client χ} {s s' : Shared χ σ π}

theorem Change.tells {x x' : Submission} (h : Change b client x s x' s') : Tells s s' := by
  cases h with
  | numbered hx hs => exact .current hs
  | unnumbered hx hs => exact .current hs
  | signed hx ht => exact .increment s
  | unsigned hx ht => exact .refl s
  | broadcast hx hb => exact .broadcast hb
  | told hx ho => exact .publish s _
  | resynced hx hs => exact .resync hs
  | unsynced hx hs => exact .resync hs
  | complained hx => exact .publish s _

/-- A consumer loop publishes diagnostics, and forgets no cached sequence. -/
theorem Loop.Change.tells {cancelled closed : Bool} {l l' : Loop}
    (h : Loop.Change b client cancelled closed l s l' s') : Tells s s' := by
  cases h with
  | declined hl hs => exact .refl s
  | admitted hl hs => exact ⟨.refl _, id⟩
  | leased hl hc => exact .refl s
  | dismissed hl hc => exact ⟨.refl _, id⟩
  | finished hl hc hq => exact ⟨.refl _, id⟩
  | took hl hc hq => exact ⟨.refl _, id⟩
  | submitted hl hx => exact .refl s
  | advanced hl hx => exact hx.tells

/-- Aborting a loop does no more than let another one run. -/
theorem Loop.abort_eq (l : Loop) (s : Shared χ σ π) :
    l.abort s = { s with submitting := s.submitting && !l.isActive } := by
  unfold abort
  cases l.isActive with
  | true => simp
  | false => simp

end Submission

/-! ### Deliveries -/

namespace Delivery

/-- What a step can turn a delivery, the queue of diagnostics and what was handed over into. -/
inductive Change (drain : Bool) (phase : Delivery) (queue : Queue Diagnostic) (delivered : List Diagnostic) :
    Delivery → Queue Diagnostic → List Diagnostic → Prop where
  /-- The delivery learns that it is to drain. -/
  | told (hp : phase = .receiving) (hd : drain = true) : Change drain phase queue delivered .draining queue delivered
  /-- A diagnostic is handed over, and the consumer may hang. -/
  | handed {d queue' phase'} (hp : phase = .receiving ∧ drain = false ∨ phase = .draining)
      (hq : queue.next? = some (d, queue')) (hn : phase' = .stuck ∨ phase' = phase) :
      Change drain phase queue delivered phase' queue' (delivered ++ [d])
  | drained (hp : phase = .draining) (hq : queue.next? = none) :
      Change drain phase queue delivered .over queue delivered

/-- A step that moves makes one of the changes. -/
theorem step_change {consumer : Consumer} {drain : Bool} {phase phase' : Delivery} {queue queue' : Queue Diagnostic}
    {delivered delivered' : List Diagnostic}
    (h : phase.step consumer drain queue delivered = .moved (phase', queue', delivered')) :
    Change drain phase queue delivered phase' queue' delivered' := by
  have hhand : ∀ at', (if consumer.reply delivered at' = .hangs then Delivery.stuck else phase) = .stuck ∨
      (if consumer.reply delivered at' = .hangs then Delivery.stuck else phase) = phase := by
    intro d
    split
    · exact .inl rfl
    · exact .inr rfl
  unfold step hand at h
  cases phase with
  | receiving =>
    dsimp only at h
    split at h
    next hd => cases h; exact .told rfl hd
    next hd =>
      split at h
      next hq => cases h; exact .handed (.inl ⟨rfl, by simpa using hd⟩) hq (hhand _)
      next => cases h
  | draining =>
    dsimp only at h
    split at h
    next hq => cases h; exact .handed (.inr rfl) hq (hhand _)
    next hq => cases h; exact .drained rfl hq
  | stuck => cases h
  | «over» => cases h

/-- A delivery publishes nothing. -/
theorem Change.log {drain : Bool} {phase phase' : Delivery} {queue queue' : Queue Diagnostic}
    {delivered delivered' : List Diagnostic} (h : Change drain phase queue delivered phase' queue' delivered') :
    queue'.log = queue.log := by
  cases h with
  | handed hp hq hn => exact (Queue.of_next? hq).1
  | _ => rfl

/-- What is handed over is what is taken from the queue. -/
theorem Change.history {drain : Bool} {phase phase' : Delivery} {queue queue' : Queue Diagnostic}
    {delivered delivered' : List Diagnostic} (h : Change drain phase queue delivered phase' queue' delivered')
    (hdelivered : delivered = queue.history) : delivered' = queue'.history := by
  cases h with
  | handed hp hq hn => rw [(Queue.of_next? hq).2.2, hdelivered]
  | _ => exact hdelivered

/-- A delivery ends when nothing waits. -/
theorem Change.of_over {drain : Bool} {phase : Delivery} {queue queue' : Queue Diagnostic}
    {delivered delivered' : List Diagnostic} (h : Change drain phase queue delivered .over queue' delivered') :
    queue.items = [] := by
  generalize hnext : Delivery.over = next at h
  cases h with
  | told hp hd => cases hnext
  | handed hp hq hn =>
    subst hnext
    rcases hn with hn | hn
    · cases hn
    · rcases hp with ⟨hp, -⟩ | hp <;> rw [hp] at hn <;> cases hn
  | drained hp hq => exact Queue.next?_eq_none_iff.mp hq

end Delivery

/-! ### Moves -/

namespace Service

open Submission (Loop)

/-- What a move can turn the shared state and the diagnostics that were handed over into. -/
inductive SharedChange (S : Service χ σ ρ π) (e : Engine χ σ ρ π) : Move → Engine χ σ ρ π → Prop where
  | added {m e'} (hs : Adds e.shared e'.shared) (hd : e'.delivered = e.delivered) : SharedChange S e m e'
  | consumed {m e' cancelled l l'}
      (hl : Loop.Change S.submitter S.collaborators.chain cancelled false l e.shared l' e'.shared)
      (hd : e'.delivered = e.delivered) : SharedChange S e m e'
  | delivered {e' drain phase phase' diagnostics}
      (hp : Delivery.Change drain phase e.shared.diagnostics e.delivered phase' diagnostics e'.delivered)
      (hs : e'.shared = { e.shared with diagnostics }) : SharedChange S e .delivery e'
  /-- A run has been ended. -/
  | finished {e' run deadline next} (hl : e.lifecycle = .closing run .delivery deadline next)
      (hj : run.delivery = .over) (he : e' = finish e next) : SharedChange S e .control e'
  | aborted {e' run deadline next} (hl : e.lifecycle = .closing run .submitter deadline next)
      (hj : joined run .submitter = false) (hd : deadline ≤ e.now) (he : e' = abort e run .submitter) :
      SharedChange S e .control e'

variable {S : Service χ σ ρ π} {e e' : Engine χ σ ρ π} {m : Move}

@[simp] theorem delivered_endStream (e : Engine χ σ ρ π) (id : Nat) (r : Report) :
    (endStream e id r).delivered = e.delivered := by
  cases r with
  | lost => simp only [endStream, Engine.lose]; split <;> rfl
  | _ => rfl

/-- A move changes the shared state in one of these ways. -/
theorem shared_change (h : Change S e m e') : SharedChange S e m e' := by
  cases h with
  | streamMoved hr ht hx hs => exact .added ((Adds.respected _).stream hs) rfl
  | streamExited hr ht hx => exact .added (by rw [shared_endStream]; exact .refl _) (by simp)
  | streamCrashed hr ht hx hs => exact .added (by rw [shared_endStream]; exact .refl _) (by simp)
  | loopMoved hr hl => exact .consumed (Submission.Loop.step_change hl) rfl
  | deliveryMoved hr hd => exact .delivered (Delivery.step_change hd) rfl
  | deliveryJoined hl hj => exact .finished hl hj rfl
  | @aborted run joining deadline next hl hj hd =>
    cases joining with
    | stream => exact .added (by rw [abort, shared_endStream]; exact .refl _) (delivered_endStream ..)
    | submitter => exact .aborted hl hj hd rfl
    | delivery => exact .added (.refl _) rfl
  | @replayFailed hash error shared hs =>
    have hadds := (Adds.respected S.collaborators).eventsOf hash e.shared
    rw [hs] at hadds
    exact .added hadds rfl
  | @replayBegun hash events shared hs =>
    have hadds := (Adds.respected S.collaborators).eventsOf hash e.shared
    rw [hs] at hadds
    exact .added hadds rfl
  | replayMoved hi ha => exact .added ((Adds.respected _).agenda ha) rfl
  | extraMoved hi hl => exact .consumed (Submission.Loop.step_change hl) rfl
  | published => exact .added (.publish _ _) rfl
  | _ => exact .added (.refl _) rfl

end Service

end Attestor
