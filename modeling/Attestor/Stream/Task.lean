import Attestor.Restart.Policy
import Attestor.Restart.Retry
import Attestor.Routing.Router

/-!
The stream task: it opens the block stream, routes the events of each block, keeps track of the height, and
starts the stream again after it has ended, as the restart mode says. Blocks come again from the tracked height,
so the last block may be delivered twice.

A step has one effect at most: one question to a collaborator, one effect of a handler, or one diagnostic. A
cancellation is noticed only where the task would otherwise wait: before the stream is opened, before a block
is taken, and before a restart.
-/

namespace Attestor.Stream

open Routing (Agenda Router)

/-- Where a stream task stands. -/
inductive Phase (ρ : Type) where
  /-- The height to start from is looked up, unless it is known. -/
  | lookup
  | opening
  | reading (feed : ρ)
  /-- A block was taken and announced. -/
  | received (block : Chain.Block) (feed : ρ)
  /-- The events of a block are on their way. -/
  | handling (agenda : Agenda) (feed : ρ)
  /-- The stream has ended: with what it reported, if it failed, and whether a restart may help. -/
  | ended (error : Option String) (recoverable : Bool)
  /-- The task waits before a restart. -/
  | sleeping (wake : Nat) (attempt : UInt32)
  /-- The exit is announced and remains to be reported. -/
  | leaving (exit : Exit)

/-- A stream task. -/
structure Task (ρ : Type) where
  /-- The height that the stream is started from next time. -/
  tracked : Option Chain.Height
  retry : Restart.Retry
  phase : Phase ρ

/-- What a stream task needs to know. -/
structure Driver where
  router : Router
  restart : Restart.Mode

namespace Task

variable {χ σ ρ π : Type}

/-- A task that has not begun. -/
def begin (height : Option Chain.Height) : Task ρ := ⟨height, .initial, .lookup⟩

/-- Announces the exit. -/
def exit (t : Task ρ) (reason : Reason) (s : Shared χ σ π) : Progress (Task ρ × Shared χ σ π) :=
  let exit : Exit := ⟨t.tracked, reason⟩
  .moved ({ t with phase := .leaving exit }, s.publish (.exited exit))

/-- The task at another phase. -/
def enter (t : Task ρ) (phase : Phase ρ) (s : Shared χ σ π) : Progress (Task ρ × Shared χ σ π) :=
  .moved ({ t with phase }, s)

/-- The end of a stream that failed. -/
def failure (f : Failure) : Phase ρ := .ended (some f.reason) f.recoverable

/-- Looks up the height to start from. If the source cannot tell, it chooses for itself. -/
def lookUp (c : Collaborators χ σ ρ π) (t : Task ρ) (s : Shared χ σ π) :
    Progress (Task ρ × Shared χ σ π) :=
  match t.tracked with
  | some _ => t.enter .opening s
  | none =>
    match c.source.currentHeight s.source with
    | (.ok height, source) => { t with tracked := height }.enter .opening { s with source }
    | (.error _, source) => t.enter .opening { s with source }

/-- Opens the stream. -/
def openStream (c : Collaborators χ σ ρ π) (t : Task ρ) (s : Shared χ σ π) :
    Progress (Task ρ × Shared χ σ π) :=
  match c.source.start t.tracked s.source with
  | (.ok feed, source) => t.enter (.reading feed) { s with source }
  | (.error f, source) => t.enter (failure f) { s with source }

/-- Takes what the stream has to give. -/
def read (c : Collaborators χ σ ρ π) (t : Task ρ) (feed : ρ) (s : Shared χ σ π) :
    Progress (Task ρ × Shared χ σ π) :=
  match c.source.next feed with
  | .block b rest => t.enter (.received b rest) (s.publish (.blockReceived b.height b.events.length))
  | .failed f => t.enter (failure f) s
  | .completed => t.enter (.ended none true) (s.publish (.completed t.tracked))
  | .pending => .blocked

/-- Tracks the height of a block, unless a greater one is tracked, and turns to its events. -/
def accept (t : Task ρ) (b : Chain.Block) (feed : ρ) (s : Shared χ σ π) :
    Progress (Task ρ × Shared χ σ π) :=
  let phase := .handling (.ofEvents (b.events.filterMap Contract.Event.classify)) feed
  if t.tracked.all (· ≤ b.height) then
    { t with tracked := some b.height }.enter phase (s.publish (.heightAdvanced b.height))
  else t.enter phase s

/-- Why a run is over when its stream has ended and is not restarted. -/
def finalReason : Option String → Reason
  | some error => .failed error
  | none => .completed

/-- Decides what comes after the end of a stream. -/
def recover (mode : Restart.Mode) (now : Nat) (t : Task ρ) (error : Option String)
    (recoverable : Bool) (s : Shared χ σ π) : Progress (Task ρ × Shared χ σ π) :=
  match mode with
  | .disabled => t.exit (finalReason error) s
  | .enabled policy =>
    if recoverable then
      let retry := t.retry.next t.tracked
      let delay := policy.delay retry.attempt
      { t with retry }.enter (.sleeping (now + delay.toNat) retry.attempt)
        (s.publish (.restarting t.tracked retry.attempt delay error))
    else t.exit (.unrecoverable (error.getD "")) s

/-- A step of the task at the time `now`. -/
def step (d : Driver) (c : Collaborators χ σ ρ π) (cancelled : Bool) (now : Nat) (t : Task ρ)
    (s : Shared χ σ π) : Progress (Task ρ × Shared χ σ π) :=
  match t.phase with
  | .lookup => t.lookUp c s
  | .opening => if cancelled then t.exit .cancelled s else t.openStream c s
  | .reading feed => if cancelled then t.exit .cancelled s else t.read c feed s
  | .received b feed => t.accept b feed s
  | .handling agenda feed =>
    match agenda.step d.router c s with
    | .moved (agenda, s) => t.enter (.handling agenda feed) s
    | .over => t.enter (.reading feed) s
    | .blocked => .blocked
    | .crashed p => .crashed p
  | .ended error recoverable => t.recover d.restart now error recoverable s
  | .sleeping wake attempt =>
    if cancelled then t.exit .cancelled s
    else if wake ≤ now then t.enter .lookup (s.publish (.restarted t.tracked attempt))
    else .blocked
  | .leaving _ => .over

/-- The exit of a task that has nothing left but to report it. -/
def exit? (t : Task ρ) : Option Exit :=
  match t.phase with
  | .leaving exit => some exit
  | _ => none

/-- When the task wants to be woken. -/
def wake? (t : Task ρ) : Option Nat :=
  match t.phase with
  | .sleeping wake _ => some wake
  | _ => none

/-! ### A run on its own -/

/-- How a run on its own ended. -/
inductive Alone where
  | exited (exit : Exit)
  /-- The run waits for something that does not come. -/
  | hung
  | crashed (p : Panic)
  deriving DecidableEq, Repr

/-- The first of two times that is later than `now`. -/
def nextTime (now : Nat) (a b : Option Nat) : Option Nat :=
  match a.filter (now < ·), b.filter (now < ·) with
  | some a, some b => some (min a b)
  | some a, none => some a
  | none, b => b

/-- Runs a task on its own, with a clock that stands still while the task can move and then jumps to when
it wakes or is cancelled. -/
def runAlone (d : Driver) (c : Collaborators χ σ ρ π) (cancelAt : Option Nat) :
    (steps : Nat) → (now : Nat) → Task ρ → Shared χ σ π → Alone × Nat × Shared χ σ π
  | 0, now, _, s => (.hung, now, s)
  | steps + 1, now, t, s =>
    match t.exit? with
    | some exit => (.exited exit, now, s)
    | none =>
      match t.step d c (cancelAt.any (· ≤ now)) now s with
      | .moved (t, s) => runAlone d c cancelAt steps now t s
      | .crashed p => (.crashed p, now, s)
      | .over => (.hung, now, s)
      | .blocked =>
        match nextTime now t.wake? cancelAt with
        | some now => runAlone d c cancelAt steps now t s
        | none => (.hung, now, s)

end Task

end Attestor.Stream
