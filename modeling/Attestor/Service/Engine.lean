import Attestor.Diagnostic.Delivery
import Attestor.Settings.Verifier
import Attestor.Stream.Task
import Attestor.Submission.Loop

/-!
The engine. One run of it consists of three tasks: the stream task, the consumer loop of the submitter, and the
delivery of diagnostics. A run is ended by cancelling the first two and joining them, in this order, and then
letting the delivery drain; so the last diagnostics still arrive. A task that does not end in time is aborted.

Everything that can happen is a `Move`: a step of a task, a step of a call that is under way, the passage of
time, or the beginning of a call. `Service.apply` makes a move; a move that is not possible changes nothing. So a
list of moves is one way in which tasks, calls and time can interleave.
-/

namespace Attestor

open Routing (Agenda)
open Submission (Loop)

/-- What an engine is made of and does not change. -/
structure Service (χ σ ρ π : Type) where
  collaborators : Collaborators χ σ ρ π
  driver : Stream.Driver
  submitter : Submitter
  consumer : Consumer
  /-- Milliseconds that stopping waits for each task. -/
  shutdownTimeout : Nat

namespace Service

/-- What is known of the end of a run. -/
inductive Report where
  | pending
  | exited (exit : Stream.Exit)
  /-- The stream task ended without a report. -/
  | lost
  deriving DecidableEq, Repr

namespace Report

/-- The run has reported its exit. -/
def isFinished : Report → Bool
  | .exited _ => true
  | _ => false

/-- What waiting for the run gives, as soon as it gives something. -/
def awaited : Report → Option Stream.Exit
  | .pending => none
  | .exited exit => some exit
  | .lost => some .lost

end Report

/-- A run: its number and its tasks. The stream task is absent once it has ended. -/
structure Run (ρ : Type) where
  id : Nat
  cancelled : Bool
  /-- The delivery was told to drain. -/
  draining : Bool
  stream : Option (Stream.Task ρ)
  loop : Loop
  delivery : Delivery

/-- A run that has just begun. -/
def Run.begin {ρ : Type} (id : Nat) (height : Option Chain.Height) : Run ρ :=
  ⟨id, false, false, some (.begin height), .called, .receiving⟩

/-- The task that a call waits for while it ends a run. -/
inductive Joining where
  | stream
  | submitter
  | delivery
  deriving DecidableEq, Repr

/-- What happens when a run has been ended. -/
inductive Afterwards where
  | stop
  | start (height : Option Chain.Height)
  deriving DecidableEq, Repr

/-- The state of the life cycle. -/
inductive Lifecycle (ρ : Type) where
  | idle
  | running (run : Run ρ)
  /-- A call ends a run, and waits for a task until a time. -/
  | closing (run : Run ρ) (joining : Joining) (deadline : Nat) (next : Afterwards)
  | stopped

namespace Lifecycle

variable {ρ : Type}

/-- The run whose tasks may be alive. -/
def run? : Lifecycle ρ → Option (Run ρ)
  | .running run => some run
  | .closing run _ _ _ => some run
  | _ => none

/-- Changes the run. -/
def mapRun (f : Run ρ → Run ρ) : Lifecycle ρ → Lifecycle ρ
  | .running run => .running (f run)
  | .closing run joining deadline next => .closing (f run) joining deadline next
  | other => other

end Lifecycle

/-- Another consumer loop on the engine's submitter, which can be cancelled on its own. -/
structure Extra where
  cancelled : Bool
  loop : Loop

end Service

/-- The state of an engine. -/
structure Engine (χ σ ρ π : Type) where
  shared : Shared χ σ π
  lifecycle : Service.Lifecycle ρ
  /-- What is known of each run; the first run has the number one. -/
  reports : List Service.Report
  /-- The diagnostics that were handed to the consumer. -/
  delivered : List Diagnostic
  /-- Replays under way. -/
  replays : List Agenda
  /-- Consumer loops beside that of the run. -/
  extras : List Service.Extra
  /-- Milliseconds since the beginning. -/
  now : Nat

namespace Engine

variable {χ σ ρ π : Type}

/-- An engine that was never started. -/
def initial (shared : Shared χ σ π) : Engine χ σ ρ π :=
  ⟨shared, .idle, [], [], [], [], 0⟩

/-- What is known of a run. -/
def report (e : Engine χ σ ρ π) (id : Nat) : Service.Report :=
  if id = 0 then .pending else e.reports.getD (id - 1) .pending

/-- Records what is known of a run. -/
def setReport (e : Engine χ σ ρ π) (id : Nat) (r : Service.Report) : Engine χ σ ρ π :=
  { e with reports := if id = 0 then e.reports else e.reports.set (id - 1) r }

/-- Records that a run is lost, unless it has reported. -/
def lose (e : Engine χ σ ρ π) (id : Nat) : Engine χ σ ρ π :=
  if e.report id = .pending then e.setReport id .lost else e

/-- A run is under way and has not reported its exit. -/
def isRunning (e : Engine χ σ ρ π) : Bool :=
  match e.lifecycle with
  | .running run => !(e.report run.id).isFinished
  | _ => false

/-- The number of the current run. -/
def runId (e : Engine χ σ ρ π) : Option Nat :=
  e.lifecycle.run?.map (·.id)

/-- Begins a run. -/
def spawn (e : Engine χ σ ρ π) (height : Option Chain.Height) : Engine χ σ ρ π :=
  { e with
    lifecycle := .running (.begin (e.reports.length + 1) height)
    reports := e.reports ++ [.pending] }

end Engine

namespace Service

variable {χ σ ρ π : Type} (S : Service χ σ ρ π)

/-! ### Steps of the tasks -/

/-- The engine after a task has ended its run's stream. -/
def endStream (e : Engine χ σ ρ π) (id : Nat) (r : Report) : Engine χ σ ρ π :=
  let e := { e with lifecycle := e.lifecycle.mapRun fun run => { run with stream := none } }
  match r with
  | .lost => e.lose id
  | r => e.setReport id r

/-- A step of the stream task, if it can make one. -/
def streamStep (e : Engine χ σ ρ π) : Option (Engine χ σ ρ π) := do
  let run ← e.lifecycle.run?
  let task ← run.stream
  match task.exit? with
  | some exit => some (endStream e run.id (.exited exit))
  | none =>
    match task.step S.driver S.collaborators run.cancelled e.now e.shared with
    | .moved (task, shared) =>
      some { e with
        shared
        lifecycle := e.lifecycle.mapRun fun run => { run with stream := some task } }
    | .crashed _ => some (endStream e run.id .lost)
    | .blocked => none
    | .over => none

/-- A step of the consumer loop, if it can make one. -/
def submitterStep (e : Engine χ σ ρ π) : Option (Engine χ σ ρ π) := do
  let run ← e.lifecycle.run?
  let (loop, shared) ←
    (run.loop.step S.submitter S.collaborators.chain run.cancelled false e.shared).next?
  return { e with shared, lifecycle := e.lifecycle.mapRun fun run => { run with loop } }

/-- A step of the delivery, if it can make one. -/
def deliveryStep (e : Engine χ σ ρ π) : Option (Engine χ σ ρ π) := do
  let run ← e.lifecycle.run?
  let (delivery, diagnostics, delivered) ←
    (run.delivery.step S.consumer run.draining e.shared.diagnostics e.delivered).next?
  return { e with
    shared := { e.shared with diagnostics }
    delivered
    lifecycle := e.lifecycle.mapRun fun run => { run with delivery } }

/-! ### Ending a run -/

/-- The task that a call waits for has ended. -/
def joined (run : Run ρ) : Joining → Bool
  | .stream => run.stream.isNone
  | .submitter => match run.loop with
    | .over => true
    | _ => false
  | .delivery => run.delivery = .over

/-- Aborts the task that a call waits for. -/
def abort (e : Engine χ σ ρ π) (run : Run ρ) : Joining → Engine χ σ ρ π
  | .stream => endStream e run.id .lost
  | .submitter =>
    { e with
      shared := run.loop.abort e.shared
      lifecycle := e.lifecycle.mapRun fun run => { run with loop := .over } }
  | .delivery =>
    { e with lifecycle := e.lifecycle.mapRun fun run => { run with delivery := .over } }

/-- Begins to end a run: its stream and its submitter are cancelled. -/
def close (e : Engine χ σ ρ π) (run : Run ρ) (next : Afterwards) : Engine χ σ ρ π :=
  { e with
    lifecycle := .closing { run with cancelled := true } .stream (e.now + S.shutdownTimeout) next }

/-- What comes after the last task has ended: the cached sequence is forgotten, and a new run begins if one
is wanted. -/
def finish (e : Engine χ σ ρ π) : Afterwards → Engine χ σ ρ π
  | .stop => { e with shared := e.shared.reset, lifecycle := .stopped }
  | .start height => { e with shared := e.shared.reset }.spawn height

/-- Turns to the next task to join. -/
def advance (e : Engine χ σ ρ π) : Engine χ σ ρ π :=
  match e.lifecycle with
  | .closing run .stream _ next =>
    { e with lifecycle := .closing run .submitter (e.now + S.shutdownTimeout) next }
  | .closing run .submitter _ next =>
    { e with
      lifecycle :=
        .closing { run with draining := true } .delivery (e.now + S.shutdownTimeout) next }
  | .closing _ .delivery _ next => finish e next
  | _ => e

/-- A step of a call that ends a run, if it can make one: it goes on once the task has ended, and aborts the
task once its time is up. -/
def controlStep (e : Engine χ σ ρ π) : Option (Engine χ σ ρ π) :=
  match e.lifecycle with
  | .closing run joining deadline _ =>
    if joined run joining then some (S.advance e)
    else if deadline ≤ e.now then some (abort e run joining)
    else none
  | _ => none

/-! ### Calls -/

/-- Starts the engine, unless a run is under way. A run that has exited is ended first. -/
def start (e : Engine χ σ ρ π) (height : Option Chain.Height) : Engine χ σ ρ π :=
  match e.lifecycle with
  | .running run =>
    if (e.report run.id).isFinished then S.close e run (.start height) else e
  | .closing _ _ _ _ => e
  | .idle => e.spawn height
  | .stopped => e.spawn height

/-- Stops the engine. -/
def stop (e : Engine χ σ ρ π) : Engine χ σ ρ π :=
  match e.lifecycle with
  | .running run => S.close e run .stop
  | _ => e

/-- Stops the engine and starts it again. -/
def restart (e : Engine χ σ ρ π) (height : Option Chain.Height) : Engine χ σ ρ π :=
  match e.lifecycle with
  | .running run => S.close e run (.start height)
  | .closing _ _ _ _ => e
  | .idle => e.spawn height
  | .stopped => e.spawn height

/-- The contract's events in a past transaction. A failure is told. -/
def eventsOf (hash : String) (s : Shared χ σ π) :
    Except Error (List Contract.Event) × Shared χ σ π :=
  match S.collaborators.chain.events hash s.chain with
  | (.ok events, chain) => (.ok (events.filterMap Contract.Event.classify), { s with chain })
  | (.error failure, chain) =>
    (.error (.chain failure), { s with chain }.publish (.replayFailed hash failure.message))

/-- How a replay ended. -/
inductive Replayed where
  /-- This many events were routed. -/
  | routed (count : Nat)
  | failed (error : Error)
  | stuck (how : Routing.Routed)

/-- Routes the contract's events in a past transaction, each to its end. -/
def replay (hash : String) (s : Shared χ σ π) : Replayed × Shared χ σ π :=
  match S.eventsOf hash s with
  | (.error error, s) => (.failed error, s)
  | (.ok events, s) =>
    match S.driver.router.routeAll S.collaborators events s with
    | (.ok count, s) => (.routed count, s)
    | (.error how, s) => (.stuck how, s)

/-- Begins a replay. -/
def beginReplay (e : Engine χ σ ρ π) (hash : String) : Engine χ σ ρ π :=
  match S.eventsOf hash e.shared with
  | (.error _, shared) => { e with shared }
  | (.ok events, shared) => { e with shared, replays := e.replays ++ [.ofEvents events] }

/-- A step of a replay, if it can make one. A replay in which calling a handler panics goes no further. -/
def replayStep (e : Engine χ σ ρ π) (i : Nat) : Option (Engine χ σ ρ π) := do
  let agenda ← e.replays[i]?
  match agenda.step S.driver.router S.collaborators e.shared with
  | .moved (agenda, shared) => some { e with shared, replays := e.replays.set i agenda }
  | .crashed _ => some { e with replays := e.replays.set i (.ofEvents []) }
  | .blocked => none
  | .over => none

/-- A step of another consumer loop, if it can make one. -/
def extraStep (e : Engine χ σ ρ π) (i : Nat) : Option (Engine χ σ ρ π) := do
  let extra ← e.extras[i]?
  let (loop, shared) ←
    (extra.loop.step S.submitter S.collaborators.chain extra.cancelled false e.shared).next?
  return { e with shared, extras := e.extras.set i { extra with loop } }

/-! ### Moves -/

/-- Something that happens. -/
inductive Move where
  | stream
  | submitter
  | delivery
  /-- A step of the call that ends a run. -/
  | control
  /-- A replay goes on. -/
  | replaying (i : Nat)
  /-- Another consumer loop goes on. -/
  | consuming (i : Nat)
  /-- Milliseconds pass. -/
  | tick (ms : Nat)
  | start (height : Option Chain.Height)
  | stop
  | restart (height : Option Chain.Height)
  | replay (hash : String)
  /-- Someone outside publishes a diagnostic. -/
  | publish (d : Diagnostic)
  /-- Someone outside runs another consumer loop. -/
  | consume
  /-- Another consumer loop is cancelled. -/
  | dismiss (i : Nat)

/-- Makes a move. A task that cannot make a step stays as it is, and a call that cannot begin does not. -/
def apply (e : Engine χ σ ρ π) : Move → Engine χ σ ρ π
  | .stream => (S.streamStep e).getD e
  | .submitter => (S.submitterStep e).getD e
  | .delivery => (S.deliveryStep e).getD e
  | .control => (S.controlStep e).getD e
  | .replaying i => (S.replayStep e i).getD e
  | .consuming i => (S.extraStep e i).getD e
  | .tick ms => { e with now := e.now + ms }
  | .start height => S.start e height
  | .stop => S.stop e
  | .restart height => S.restart e height
  | .replay hash => S.beginReplay e hash
  | .publish d => { e with shared := e.shared.publish d }
  | .consume => { e with extras := e.extras ++ [⟨false, .called⟩] }
  | .dismiss i => { e with extras := e.extras.modify i fun x => { x with cancelled := true } }

/-- Makes moves, one after the other. -/
def run (e : Engine χ σ ρ π) (moves : List Move) : Engine χ σ ρ π :=
  moves.foldl S.apply e

end Service

end Attestor
