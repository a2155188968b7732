import Attestor.Proofs.Effects
import Attestor.Stream.Task

/-!
Transitions of agendas and of the stream task. Each row of a `Change` is one thing that a step can do, with its
guard; a step that moves does one of them (`step_change`). What is proved about agendas and stream tasks is proved
row by row.
-/

/-! ### Agendas -/

namespace Attestor.Routing.Agenda

variable {χ σ ρ π : Type}

/-- What a step can turn an agenda and the shared state into. -/
inductive Change (r : Router) (c : Collaborators χ σ ρ π) (s : Shared χ σ π) :
    Agenda → Agenda → Shared χ σ π → Prop where
  /-- The handler of the event in hand is over. -/
  | ended {d waiting ending} (h : d.activity.ending? = some ending) :
      Change r c s ⟨some d, waiting⟩ ⟨none, waiting⟩ (report d.event d.kind ending s)
  /-- The handler of the event in hand has an effect. -/
  | acted {d waiting x a s'} (hx : d.activity.effect? c s = some x) (hafter : d.activity.After x a)
      (hturns : x.Turns c s s') : Change r c s ⟨some d, waiting⟩ ⟨some { d with activity := a }, waiting⟩ s'
  /-- A filter drops the next event. -/
  | ignored {e waiting outcome reason} (h : r.direct e = .ignore outcome reason) :
      Change r c s ⟨none, e :: waiting⟩ ⟨none, waiting⟩ (s.publish (.ignored e reason))
  /-- The next event goes to its handler. -/
  | called {e waiting kind handler activity} (h : r.direct e = .handle kind handler)
      (hcall : r.call e handler = .ok activity) :
      Change r c s ⟨none, e :: waiting⟩ ⟨some ⟨e, kind, activity⟩, waiting⟩ s

/-- A step that moves makes one of the changes. -/
theorem step_change {r : Router} {c : Collaborators χ σ ρ π} {a a' : Agenda} {s s' : Shared χ σ π}
    (h : a.step r c s = .moved (a', s')) : Change r c s a a' s' := by
  obtain ⟨current, waiting⟩ := a
  cases current with
  | some d =>
    simp only [step, handle] at h
    split at h
    next ending hending => cases h; exact .ended hending
    next hover =>
      split at h
      next => cases h
      next hhang =>
        obtain ⟨x, hx, hafter, hturns⟩ := Handler.Activity.step_effect c s hover fun he => hhang he
        rcases hstep : d.activity.step c s with ⟨activity, s''⟩
        rw [hstep] at h hafter hturns
        cases h
        exact .acted hx hafter hturns
  | none =>
    cases waiting with
    | nil => cases h
    | cons e waiting =>
      simp only [step, turn] at h
      split at h
      next hdirect => cases h; exact .ignored hdirect
      next hdirect =>
        split at h
        next => cases h
        next hcall => cases h; exact .called hdirect hcall

/-- An agenda is over when nothing is being handled and nothing waits. -/
theorem of_step_over {r : Router} {c : Collaborators χ σ ρ π} {a : Agenda} {s : Shared χ σ π}
    (h : a.step r c s = .over) : a = ⟨none, []⟩ := by
  obtain ⟨current, waiting⟩ := a
  cases current with
  | some d =>
    simp only [step, handle] at h
    split at h
    · cases h
    · split at h <;> cases h
  | none =>
    cases waiting with
    | nil => rfl
    | cons e waiting =>
      simp only [step, turn] at h
      split at h
      · cases h
      · split at h <;> cases h

end Attestor.Routing.Agenda

/-! ### Stream tasks -/

namespace Attestor.Stream.Task

open Routing (Agenda)

variable {χ σ ρ π : Type}

/-- The block that the step ahead takes from the feed, if it takes one. -/
def taken? (source : Source σ ρ) (cancelled : Bool) (t : Task ρ) : Option Chain.Block :=
  match t.phase with
  | .reading feed =>
    match cancelled, source.next feed with
    | false, .block b _ => some b
    | _, _ => none
  | _ => none

theorem taken?_of_next {source : Source σ ρ} {cancelled : Bool} {t : Task ρ} {feed rest : ρ}
    {b : Chain.Block} (hc : cancelled = false) (hp : t.phase = .reading feed)
    (hn : source.next feed = .block b rest) : t.taken? source cancelled = some b := by
  simp [taken?, hp, hc, hn]

/-- The task waits where a cancellation is noticed. -/
def Interruptible (t : Task ρ) : Prop :=
  t.phase = .opening ∨ (∃ feed, t.phase = .reading feed) ∨ ∃ wake attempt, t.phase = .sleeping wake attempt

/-- What a step at the time `now` can turn a task and the shared state into. -/
inductive Change (d : Driver) (c : Collaborators χ σ ρ π) (cancelled : Bool) (now : Nat) (t : Task ρ)
    (s : Shared χ σ π) : Task ρ → Shared χ σ π → Prop where
  /-- The height to start from is known. -/
  | known {height} (hp : t.phase = .lookup) (ht : t.tracked = some height) :
      Change d c cancelled now t s { t with phase := .opening } s
  /-- The source tells the height to start from, or that it knows none. -/
  | found {height source} (hp : t.phase = .lookup) (ht : t.tracked = none)
      (hh : c.source.currentHeight s.source = (.ok height, source)) :
      Change d c cancelled now t s { t with tracked := height, phase := .opening } { s with source }
  /-- The source cannot tell the height to start from. -/
  | unknown {f source} (hp : t.phase = .lookup) (ht : t.tracked = none)
      (hh : c.source.currentHeight s.source = (.error f, source)) :
      Change d c cancelled now t s { t with phase := .opening } { s with source }
  /-- A cancellation is noticed. -/
  | dismissed (hc : cancelled = true) (hp : t.Interruptible) :
      Change d c cancelled now t s { t with phase := .leaving ⟨t.tracked, .cancelled⟩ }
        (s.publish (.exited ⟨t.tracked, .cancelled⟩))
  | opened {feed source} (hc : cancelled = false) (hp : t.phase = .opening)
      (hs : c.source.start t.tracked s.source = (.ok feed, source)) :
      Change d c cancelled now t s { t with phase := .reading feed } { s with source }
  | refused {f source} (hc : cancelled = false) (hp : t.phase = .opening)
      (hs : c.source.start t.tracked s.source = (.error f, source)) :
      Change d c cancelled now t s { t with phase := failure f } { s with source }
  /-- A block is taken from the feed. -/
  | took {feed b rest} (hc : cancelled = false) (hp : t.phase = .reading feed)
      (hn : c.source.next feed = .block b rest) :
      Change d c cancelled now t s { t with phase := .received b rest }
        (s.publish (.blockReceived b.height b.events.length))
  | broke {feed f} (hc : cancelled = false) (hp : t.phase = .reading feed)
      (hn : c.source.next feed = .failed f) :
      Change d c cancelled now t s { t with phase := failure f } s
  | completed {feed} (hc : cancelled = false) (hp : t.phase = .reading feed)
      (hn : c.source.next feed = .completed) :
      Change d c cancelled now t s { t with phase := .ended none true }
        (s.publish (.completed t.tracked))
  /-- The height of the block is tracked. -/
  | advanced {b feed} (hp : t.phase = .received b feed) (ht : t.tracked.all (· ≤ b.height) = true) :
      Change d c cancelled now t s
        { t with
          tracked := some b.height
          phase := .handling (.ofEvents (b.events.filterMap Contract.Event.classify)) feed }
        (s.publish (.heightAdvanced b.height))
  /-- A greater height is tracked already. -/
  | surpassed {b feed} (hp : t.phase = .received b feed) (ht : ¬ t.tracked.all (· ≤ b.height) = true) :
      Change d c cancelled now t s
        { t with phase := .handling (.ofEvents (b.events.filterMap Contract.Event.classify)) feed } s
  | handled {agenda feed agenda' s'} (hp : t.phase = .handling agenda feed)
      (ha : agenda.step d.router c s = .moved (agenda', s')) :
      Change d c cancelled now t s { t with phase := .handling agenda' feed } s'
  | settled {agenda feed} (hp : t.phase = .handling agenda feed) (ha : agenda.step d.router c s = .over) :
      Change d c cancelled now t s { t with phase := .reading feed } s
  | quit {error recoverable} (hp : t.phase = .ended error recoverable) (hm : d.restart = .disabled) :
      Change d c cancelled now t s { t with phase := .leaving ⟨t.tracked, finalReason error⟩ }
        (s.publish (.exited ⟨t.tracked, finalReason error⟩))
  | gaveUp {error policy} (hp : t.phase = .ended error false) (hm : d.restart = .enabled policy) :
      Change d c cancelled now t s { t with phase := .leaving ⟨t.tracked, .unrecoverable (error.getD "")⟩ }
        (s.publish (.exited ⟨t.tracked, .unrecoverable (error.getD "")⟩))
  | restarting {error policy retry} (hp : t.phase = .ended error true) (hm : d.restart = .enabled policy)
      (hr : retry = t.retry.next t.tracked) :
      Change d c cancelled now t s
        { t with
          retry
          phase := .sleeping (now + (policy.delay retry.attempt).toNat) retry.attempt }
        (s.publish (.restarting t.tracked retry.attempt (policy.delay retry.attempt) error))
  | restarted {wake attempt} (hc : cancelled = false) (hp : t.phase = .sleeping wake attempt)
      (hw : wake ≤ now) :
      Change d c cancelled now t s { t with phase := .lookup } (s.publish (.restarted t.tracked attempt))

/-- A step that moves makes one of the changes. -/
theorem step_change {d : Driver} {c : Collaborators χ σ ρ π} {cancelled : Bool} {now : Nat}
    {t t' : Task ρ} {s s' : Shared χ σ π} (h : t.step d c cancelled now s = .moved (t', s')) :
    Change d c cancelled now t s t' s' := by
  unfold step at h
  split at h
  next hp =>
    unfold lookUp at h
    split at h
    next ht => cases h; exact .known hp ht
    next ht =>
      split at h
      next hh => cases h; exact .found hp ht hh
      next hh => cases h; exact .unknown hp ht hh
  next hp =>
    split at h
    next hc => cases h; exact .dismissed hc (.inl hp)
    next hc =>
      unfold openStream at h
      split at h
      next hs => cases h; exact .opened (by simpa using hc) hp hs
      next hs => cases h; exact .refused (by simpa using hc) hp hs
  next feed hp =>
    split at h
    next hc => cases h; exact .dismissed hc (.inr (.inl ⟨feed, hp⟩))
    next hc =>
      unfold read at h
      split at h
      next hn => cases h; exact .took (by simpa using hc) hp hn
      next hn => cases h; exact .broke (by simpa using hc) hp hn
      next hn => cases h; exact .completed (by simpa using hc) hp hn
      next => cases h
  next b feed hp =>
    unfold accept at h
    dsimp only at h
    split at h
    next ht => cases h; exact .advanced hp ht
    next ht => cases h; exact .surpassed hp ht
  next agenda feed hp =>
    split at h
    next ha => cases h; exact .handled hp ha
    next ha => cases h; exact .settled hp ha
    next => cases h
    next => cases h
  next error recoverable hp =>
    unfold recover at h
    split at h
    next hm => cases h; exact .quit hp hm
    next policy hm =>
      split at h
      next hr => cases h; exact .restarting (by rw [hp, hr]) hm rfl
      next hr => cases h; exact .gaveUp (by rw [hp, Bool.eq_false_iff.mpr hr]) hm
  next wake attempt hp =>
    split at h
    next hc => cases h; exact .dismissed hc (.inr (.inr ⟨wake, attempt, hp⟩))
    next hc =>
      split at h
      next hw => cases h; exact .restarted (by simpa using hc) hp hw
      next => cases h
  next => cases h

/-- A task that is about to report its exit has just announced it. -/
theorem Change.announces {d : Driver} {c : Collaborators χ σ ρ π} {cancelled : Bool} {now : Nat} {t t' : Task ρ}
    {s s' : Shared χ σ π} (h : Change d c cancelled now t s t' s') {exit : Exit} (hx : t'.exit? = some exit) :
    s' = s.publish (.exited exit) := by
  cases h with
  | dismissed hc hp => cases hx; rfl
  | quit hp hm => cases hx; rfl
  | gaveUp hp hm => cases hx; rfl
  | _ => cases hx

end Attestor.Stream.Task
