import Attestor.Callback

/-!
What a task does when it is given a step.
-/

namespace Attestor

/-- The result of giving a step to a task. -/
inductive Progress (α : Type) where
  /-- The task made a step. -/
  | moved (next : α)
  /-- The task waits for something. -/
  | blocked
  /-- The task has nothing left to do. -/
  | over
  /-- The task ended in a panic. -/
  | crashed (p : Panic)

namespace Progress

variable {α β : Type}

/-- Changes the state that a step leads to. -/
def map (f : α → β) : Progress α → Progress β
  | .moved next => .moved (f next)
  | .blocked => .blocked
  | .over => .over
  | .crashed p => .crashed p

/-- The state that a step leads to, if there is one. -/
def next? : Progress α → Option α
  | .moved next => some next
  | _ => none

end Progress

end Attestor
