import Attestor.Diagnostic
import Attestor.Progress
import Attestor.Queue

/-!
Delivery of diagnostics to their consumer, in the order in which they were published. A consumer may fail or
panic, which changes nothing; it may also hang, which keeps the rest waiting. Once told to drain, the delivery
ends when nothing is queued.
-/

namespace Attestor

/-- What a consumer does with a diagnostic. -/
inductive Reply where
  | accepted
  | failed
  | panicked
  /-- The consumer never returns. -/
  | hangs
  deriving DecidableEq, Repr

/-- A consumer of diagnostics. What it does may depend on what it was given before. -/
structure Consumer where
  reply : (before : List Diagnostic) → Diagnostic → Reply

/-- A consumer that accepts everything. -/
def Consumer.accepting : Consumer := ⟨fun _ _ => .accepted⟩

/-- Where a delivery stands. -/
inductive Delivery where
  | receiving
  | draining
  /-- The consumer hangs. -/
  | stuck
  | over
  deriving DecidableEq, Repr

namespace Delivery

/-- Hands a diagnostic to the consumer. -/
def hand (consumer : Consumer) (phase : Delivery) (delivered : List Diagnostic) (d : Diagnostic) :
    Delivery × List Diagnostic :=
  (if consumer.reply delivered d = .hangs then .stuck else phase, delivered ++ [d])

/-- A step of the delivery. -/
def step (consumer : Consumer) (drain : Bool) (phase : Delivery) (queue : Queue Diagnostic)
    (delivered : List Diagnostic) : Progress (Delivery × Queue Diagnostic × List Diagnostic) :=
  match phase with
  | .receiving =>
    if drain then .moved (.draining, queue, delivered)
    else
      match queue.next? with
      | some (d, queue) =>
        let (phase, delivered) := hand consumer .receiving delivered d
        .moved (phase, queue, delivered)
      | none => .blocked
  | .draining =>
    match queue.next? with
    | some (d, queue) =>
      let (phase, delivered) := hand consumer .draining delivered d
      .moved (phase, queue, delivered)
    | none => .moved (.over, queue, delivered)
  | .stuck => .blocked
  | .over => .over

end Delivery

end Attestor
