import Attestor.Service.Engine

/-!
One schedule out of many: a fair and deterministic one, with a clock that stands still while a task can move and
then jumps to the next time that something waits for. Tasks take turns: the stream, the submitter, the
delivery. A turn ends where the task has to wait; the stream also gives way after it has taken 32 blocks.

The functions take a bound on the number of steps, so that they end whatever the collaborators do.
-/

namespace Attestor.Service

variable {χ σ ρ π : Type} (S : Service χ σ ρ π)

/-- Blocks that the stream takes in one turn. -/
def blocksPerTurn : Nat := 32

/-- What the step ahead does to the count of blocks taken since the stream last gave way: whether it takes
from the feed, and whether it opens a new one. -/
def feedUse (e : Engine χ σ ρ π) : Bool × Bool :=
  match e.lifecycle.run? with
  | none => (false, false)
  | some run =>
    match run.stream with
    | none => (false, false)
    | some task =>
      match task.phase with
      | .reading _ => (!run.cancelled, false)
      | .opening => (false, true)
      | _ => (false, false)

/-- A turn of the stream. Gives whether it made any step. -/
def streamTurn : (steps blocks : Nat) → (moved : Bool) → Engine χ σ ρ π → Bool × Engine χ σ ρ π
  | 0, _, moved, e => (moved, e)
  | steps + 1, blocks, moved, e =>
    let (takes, opens) := feedUse e
    if takes && blocks == blocksPerTurn then (true, e)
    else
      match S.streamStep e with
      | none => (moved, e)
      | some e =>
        streamTurn steps (if opens then 0 else if takes then blocks + 1 else blocks) true e

/-- A turn that ends where the task has to wait. Gives whether it made any step. -/
def turn (step : Engine χ σ ρ π → Option (Engine χ σ ρ π)) :
    (steps : Nat) → (moved : Bool) → Engine χ σ ρ π → Bool × Engine χ σ ρ π
  | 0, moved, e => (moved, e)
  | steps + 1, moved, e =>
    match step e with
    | none => (moved, e)
    | some e => turn step steps true e

/-- Gives turns until every task waits. `steps` bounds each turn, and `rounds` their number. -/
def settle (steps : Nat) : (rounds : Nat) → Engine χ σ ρ π → Engine χ σ ρ π
  | 0, e => e
  | rounds + 1, e =>
    let (a, e) := S.streamTurn steps 0 false e
    let (b, e) := turn S.submitterStep steps false e
    let (c, e) := turn S.deliveryStep steps false e
    if a || b || c then settle steps rounds e else e

/-- When the stream wants to be woken. -/
def wake? (e : Engine χ σ ρ π) : Option Nat := do
  let run ← e.lifecycle.run?
  let task ← run.stream
  task.wake?

/-- Lets time pass up to `target`. What is due at the target itself is left to whoever is next. -/
def passTo (steps : Nat) (target : Nat) : (wakes : Nat) → Engine χ σ ρ π → Engine χ σ ρ π
  | 0, e => { e with now := target }
  | wakes + 1, e =>
    let e := S.settle steps steps e
    match wake? e with
    | some time =>
      if e.now < time ∧ time < target then passTo steps target wakes { e with now := time }
      else { e with now := target }
    | none => { e with now := target }

/-- Lets milliseconds pass. -/
def pass (steps : Nat) (ms : Nat) (e : Engine χ σ ρ π) : Engine χ σ ρ π :=
  S.passTo steps (e.now + ms) steps e

/-- Lets time pass until a run has ended. Gives nothing if it never does. -/
def await (steps : Nat) (id : Nat) : (wakes : Nat) → Engine χ σ ρ π →
    Option Stream.Exit × Engine χ σ ρ π
  | 0, e => (none, e)
  | wakes + 1, e =>
    match (e.report id).awaited with
    | some exit => (some exit, e)
    | none =>
      let e := S.settle steps steps e
      match (e.report id).awaited with
      | some exit => (some exit, e)
      | none =>
        match wake? e with
        | some time =>
          if e.now < time then await steps id wakes { e with now := time } else (none, e)
        | none => (none, e)

/-- Carries a call that ends a run to its end. A task that has ended is joined at once; before and after a task
is aborted, every task is given turns. Joining a task takes three stages at most. -/
def conclude (steps : Nat) : (stages : Nat) → Engine χ σ ρ π → Engine χ σ ρ π
  | 0, e => e
  | stages + 1, e =>
    match e.lifecycle with
    | .closing run joining deadline _ =>
      if joined run joining then conclude steps stages (S.advance e)
      else if deadline ≤ e.now then conclude steps stages (S.settle steps steps (abort e run joining))
      else
        let e := S.settle steps steps e
        conclude steps stages ((S.controlStep e).getD { e with now := deadline })
    | _ => e

/-- Stages that bring any call to its end. -/
def stages : Nat := 9

/-- Starts the engine and carries the call to its end. -/
def startToEnd (steps : Nat) (e : Engine χ σ ρ π) (height : Option Chain.Height) :
    Engine χ σ ρ π :=
  S.conclude steps stages (S.start e height)

/-- Stops the engine and carries the call to its end. -/
def stopToEnd (steps : Nat) (e : Engine χ σ ρ π) : Engine χ σ ρ π :=
  S.conclude steps stages (S.stop e)

/-- Restarts the engine and carries the call to its end. -/
def restartToEnd (steps : Nat) (e : Engine χ σ ρ π) (height : Option Chain.Height) :
    Engine χ σ ρ π :=
  S.conclude steps stages (S.restart e height)

end Attestor.Service
