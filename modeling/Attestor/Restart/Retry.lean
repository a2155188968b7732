import Attestor.Chain.Block

/-!
Counting restarts. Attempts are counted while restarts keep coming from one height; a restart from
another height starts over from zero. That the height is unknown counts as a height of its own.
-/

namespace Attestor.Restart

/-- The count so far, and the height it is about once there is one. -/
structure Retry where
  attempt : UInt32
  stuckHeight : Option Chain.Height
  primed : Bool
  deriving DecidableEq, Repr

namespace Retry

/-- Nothing counted yet. -/
def initial : Retry := ⟨0, none, false⟩

/-- The number after, unless it is the greatest one. -/
def successor (n : UInt32) : UInt32 :=
  if n < 0xffffffff then n + 1 else n

/-- Counts a restart from a height. The attempt to use is that of the new count. -/
def next (r : Retry) (height : Option Chain.Height) : Retry :=
  if r.primed && r.stuckHeight == height then { r with attempt := successor r.attempt }
  else ⟨0, height, true⟩

/-- Counts a restart from a height, and gives the attempt to use. -/
def nextAttempt (r : Retry) (height : Option Chain.Height) : UInt32 × Retry :=
  let counted := r.next height
  (counted.attempt, counted)

end Retry

end Attestor.Restart
