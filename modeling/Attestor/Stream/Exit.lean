import Attestor.Chain.Block

/-!
How streams of blocks fail, and how runs of a stream driver end.
-/

namespace Attestor.Stream

/-- A failure reported by a block source. -/
structure Failure where
  reason : String
  /-- The source thinks that starting again is worthwhile. -/
  recoverable : Bool
  deriving DecidableEq, Repr

/-- The failure in words. -/
def Failure.message (f : Failure) : String :=
  s!"Block stream error: {f.reason}"

/-- Why a run is over. -/
inductive Reason where
  /-- The stream completed and restarts are disabled. -/
  | completed
  /-- The stream failed and restarts are disabled. -/
  | failed (error : String)
  /-- The stream failed in a way that a restart does not mend. -/
  | unrecoverable (error : String)
  /-- The run was cancelled. -/
  | cancelled
  /-- The run's task was ended before it could report. -/
  | aborted
  deriving DecidableEq, Repr

namespace Reason

/-- The reason in a word. -/
def label : Reason → String
  | .completed => "completed"
  | .failed _ => "failed"
  | .unrecoverable _ => "unrecoverable"
  | .cancelled => "cancelled"
  | .aborted => "aborted"

/-- What the stream reported, where it failed. -/
def error : Reason → Option String
  | .failed e => some e
  | .unrecoverable e => some e
  | _ => none

end Reason

/-- What a run reports at its end. -/
structure Exit where
  /-- The height tracked last. -/
  lastHeight : Option Chain.Height
  reason : Reason
  deriving DecidableEq, Repr

/-- What is said of a run whose task ended without a report. -/
def Exit.lost : Exit := ⟨none, .aborted⟩

end Attestor.Stream
