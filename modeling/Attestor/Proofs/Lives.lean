import Attestor.Proofs.Retries
import Attestor.Stream.Task

/-!
Lives of a stream. Each time that a task starts its stream a life begins: it has the height that it was started from,
the blocks that were taken from it, and the way it ended. The lives of a run and the restart policy tell all that a
task itself publishes, in order, its exit apart (`script`): each block, the height if it has advanced, the completion,
and between two lives that the stream is starting again, and that it has started. The attempt of a restart is the
number of restarts from the same height right before it.
-/

namespace Attestor.Stream

open Chain (Block Height)
open Restart (Policy Retry)

/-! ### Blocks -/

/-- The height tracked after a block. -/
def track (tracked : Option Height) (b : Block) : Option Height :=
  if tracked.all (· ≤ b.height) then some b.height else tracked

/-- What a task tells of a block, the height tracked before it given. -/
def announcement (tracked : Option Height) (b : Block) : List Diagnostic :=
  .blockReceived b.height b.events.length ::
    if tracked.all (· ≤ b.height) then [.heightAdvanced b.height] else []

/-- What a task tells of blocks that come one after the other. -/
def announcements : Option Height → List Block → List Diagnostic
  | _, [] => []
  | tracked, b :: bs => announcement tracked b ++ announcements (track tracked b) bs

theorem announcements_concat (tracked : Option Height) (bs : List Block) (b : Block) :
    announcements tracked (bs ++ [b]) = announcements tracked bs ++ announcement (bs.foldl track tracked) b := by
  induction bs generalizing tracked with
  | nil => exact List.append_nil _
  | cons b' bs ih =>
    rw [List.cons_append, announcements, announcements, ih, List.append_assoc]
    rfl

/-! ### Lives -/

/-- A start of the stream, and the blocks that were taken from it. -/
structure Opening where
  /-- The height that the stream was started from. -/
  start : Option Height
  blocks : List Block

/-- The height tracked after the blocks. -/
def Opening.height (o : Opening) : Option Height := o.blocks.foldl track o.start

/-- What a task tells of the blocks. -/
def Opening.told (o : Opening) : List Diagnostic := announcements o.start o.blocks

/-- One more block was taken. -/
def Opening.take (o : Opening) (b : Block) : Opening := { o with blocks := o.blocks ++ [b] }

theorem Opening.height_take (o : Opening) (b : Block) : (o.take b).height = track o.height b := by
  rw [height, take, List.foldl_append]
  rfl

theorem Opening.told_take (o : Opening) (b : Block) : (o.take b).told = o.told ++ announcement o.height b :=
  announcements_concat o.start o.blocks b

/-- A start of the stream up to its end: a failure, or its completion. -/
structure Life where
  opening : Opening
  failure : Option Failure

namespace Life

/-- The height tracked at the end. -/
def height (l : Life) : Option Height := l.opening.height

/-- What the stream reported at its end, if it failed. -/
def error (l : Life) : Option String := l.failure.map (·.reason)

/-- The stream completed, or a restart may mend its failure. -/
def recoverable (l : Life) : Bool := l.failure.all (·.recoverable)

/-- What a task tells of the completion, if the stream completed. -/
def completion (l : Life) : List Diagnostic :=
  match l.failure with
  | none => [.completed l.height]
  | some _ => []

/-- What a task tells of the life. -/
def told (l : Life) : List Diagnostic := l.opening.told ++ l.completion

/-- Why a run is over that ends with this life, restarts being disabled. -/
def finalReason (l : Life) : Reason :=
  match l.failure with
  | none => .completed
  | some f => .failed f.reason

theorem finalReason_error (l : Life) : Task.finalReason l.error = l.finalReason := by
  unfold error finalReason
  cases l.failure <;> rfl

/-- Where a restart does not help the stream has failed. -/
theorem failure_of_not_recoverable (l : Life) (h : l.recoverable = false) :
    ∃ f, l.failure = some f ∧ f.recoverable = false := by
  unfold recoverable at h
  cases hf : l.failure with
  | none => simp [hf] at h
  | some f => exact ⟨f, rfl, by simpa [hf] using h⟩

/-- The attempt of the restart after the life, after restarts from the heights `before`. -/
def attempt (before : List (Option Height)) (l : Life) : UInt32 := Retry.attemptAfter before l.height

/-- What a task tells when it is about to start the stream again. -/
def restarting (policy : Policy) (before : List (Option Height)) (l : Life) : Diagnostic :=
  .restarting l.height (l.attempt before) (policy.delay (l.attempt before)) l.error

/-- What a task tells when it starts the stream again. -/
def restarted (before : List (Option Height)) (l : Life) : Diagnostic := .restarted l.height (l.attempt before)

end Life

/-- What a task tells of lives that were each followed by a restart, after restarts from the heights `before`. -/
def script (policy : Policy) : (before : List (Option Height)) → List Life → List Diagnostic
  | _, [] => []
  | before, l :: ls =>
    l.told ++ [l.restarting policy before, l.restarted before] ++ script policy (before ++ [l.height]) ls

theorem script_concat (policy : Policy) (before : List (Option Height)) (ls : List Life) (l : Life) :
    script policy before (ls ++ [l]) = script policy before ls ++
      (l.told ++ [l.restarting policy (before ++ ls.map Life.height), l.restarted (before ++ ls.map Life.height)]) := by
  induction ls generalizing before with
  | nil => simp [script]
  | cons l' ls ih =>
    rw [List.cons_append, script, script, ih, List.map_cons, List.append_assoc, List.append_assoc]
    simp

/-! ### What is not told of lives -/

/-- The exit that a diagnostic announces. -/
def exit? : Diagnostic → Option Exit
  | .exited exit => some exit
  | _ => none

/-- The diagnostic says that the stream is about to be started again. -/
def isRestarting : Diagnostic → Bool
  | .restarting _ _ _ _ => true
  | _ => false

/-- Of blocks neither an exit is told, nor a restart. -/
theorem mem_announcements {tracked : Option Height} {bs : List Block} {d : Diagnostic}
    (h : d ∈ announcements tracked bs) : exit? d = none ∧ isRestarting d = false := by
  induction bs generalizing tracked with
  | nil => cases h
  | cons b bs ih =>
    rcases List.mem_append.mp h with h | h
    · rcases List.mem_cons.mp h with rfl | h
      · exact ⟨rfl, rfl⟩
      · split at h
        · rw [List.mem_singleton.mp h]
          exact ⟨rfl, rfl⟩
        · cases h
    · exact ih h

theorem Life.mem_told {l : Life} {d : Diagnostic} (h : d ∈ l.told) : exit? d = none ∧ isRestarting d = false := by
  rcases List.mem_append.mp h with h | h
  · exact mem_announcements h
  · unfold completion at h
    split at h
    · rw [List.mem_singleton.mp h]
      exact ⟨rfl, rfl⟩
    · cases h

/-- Lives and restarts announce no exit. -/
theorem exit?_of_mem_script {policy : Policy} {before : List (Option Height)} {ls : List Life} {d : Diagnostic}
    (h : d ∈ script policy before ls) : exit? d = none := by
  induction ls generalizing before with
  | nil => cases h
  | cons l ls ih =>
    rcases List.mem_append.mp h with h | h
    · rcases List.mem_append.mp h with h | h
      · exact (Life.mem_told h).1
      · rcases List.mem_cons.mp h with rfl | h
        · rfl
        · obtain rfl := List.mem_singleton.mp h
          rfl
    · exact ih h

end Attestor.Stream
