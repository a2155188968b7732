import Attestor.Proofs.Counters
import Attestor.Proofs.Submissions

/-!
What submissions tell. A submission tells its outcome, and after that, if it was no success and the sequence could not
be read again, that too (`submit_told`). So over any list of verifications the counters of outcomes are raised once for
each verification, and that of failed resynchronisations once for each that failed (`submitAll_counted`).
-/

namespace Attestor.Submitter

open Contract (Verification)
open Submission (Outcome)

variable {χ σ π : Type} (b : Submitter) (client : Chain.Client χ) (v : Verification) (s : Shared χ σ π)

/-- The outcome of submitting a verification. -/
def outcome : Outcome := .ofAttempt (b.attempt client v s).1

/-- The answer that a submission gets when it reads the sequence again, if it has to. -/
def resync? : Option (Except Chain.Failure Sequence.Snapshot) :=
  if (b.outcome client v s).isSuccess then none
  else some (((b.attempt client v s).2.publish (.submission v (b.outcome client v s).told)).resync client
    b.signer.address).1

/-- How many of the submissions have to read the sequence again and fail to. -/
def failedResyncs : List Verification → Shared χ σ π → Nat
  | [], _ => 0
  | v :: vs, s =>
    match b.resync? client v s with
    | some (.error _) => failedResyncs vs (b.submit client v s).2 + 1
    | _ => failedResyncs vs (b.submit client v s).2

/-- What a submission tells of reading the sequence again. -/
def complaint (v : Verification) : Option (Except Chain.Failure Sequence.Snapshot) → List Diagnostic
  | some (.error failure) => [.submission v (.resyncFailed failure.message)]
  | _ => []

/-- Signing and broadcasting tell nothing. -/
theorem diagnostics_attempt : (b.attempt client v s).2.diagnostics = s.diagnostics := by
  have hsame := s.diagnostics_current client b.signer.address
  unfold attempt
  generalize s.current client b.signer.address = found at hsame ⊢
  obtain ⟨failure | snapshot, s'⟩ := found
  · exact hsame
  · dsimp only
    split
    · exact hsame
    · rw [Submission.diagnostics_broadcast]
      exact hsame

/-- A submission tells its outcome, and that the sequence could not be read again if so. -/
theorem submit_told : (b.submit client v s).2.diagnostics.log = s.diagnostics.log ++
    (.submission v (b.outcome client v s).told :: complaint v (b.resync? client v s)) := by
  have hlog := congrArg Queue.log (b.diagnostics_attempt client v s)
  unfold submit resync? outcome
  generalize b.attempt client v s = attempted at hlog ⊢
  obtain ⟨answer, s'⟩ := attempted
  rw [← hlog]
  dsimp only
  split
  next => rfl
  next =>
    have hsame := (s'.publish (.submission v (Outcome.ofAttempt answer).told)).diagnostics_resync client
      b.signer.address
    unfold recover
    generalize (s'.publish (.submission v (Outcome.ofAttempt answer).told)).resync client b.signer.address = found
      at hsame ⊢
    obtain ⟨failure | snapshot, s''⟩ := found
    · show s''.diagnostics.log ++ [_] = _
      rw [show s''.diagnostics = _ from hsame]
      exact List.append_assoc s'.diagnostics.log [_] [_]
    · exact congrArg Queue.log hsame

/-! ### What is counted -/

/-- An outcome raises one counter of outcomes, once. -/
theorem countP_told (v : Verification) (outcome : Outcome) :
    (Diagnostic.submission v outcome.told).counters.countP Counter.countsOutcomes = 1 ∧
      (Diagnostic.submission v outcome.told).counters.count .resyncFailed = 0 := by
  cases outcome <;> exact ⟨rfl, rfl⟩

/-- Failing to read the sequence again raises the counter of that, once, and none of outcomes. -/
theorem total_complaint (vs : List Verification) :
    Counter.total Counter.countsOutcomes (complaint v (b.resync? client v s)) = 0 ∧
      b.failedResyncs client (v :: vs) s = Counter.resyncFailed.increase (complaint v (b.resync? client v s)) +
        b.failedResyncs client vs (b.submit client v s).2 := by
  unfold complaint
  rw [failedResyncs]
  split
  next => exact ⟨rfl, Nat.add_comm _ _⟩
  next => exact ⟨rfl, (Nat.zero_add _).symm⟩

/-- Submitting verifications raises the counters of outcomes once for each of them, over all labels, and that of failed
resynchronisations once for each that failed. -/
structure Counted (vs : List Verification) (ds : List Diagnostic) : Prop where
  outcomes : Counter.total Counter.countsOutcomes ds = vs.length
  resyncs : Counter.resyncFailed.increase ds = b.failedResyncs client vs s

theorem submitAll_counted (vs : List Verification) : ∃ ds,
    (b.submitAll client vs s).2.diagnostics.log = s.diagnostics.log ++ ds ∧ b.Counted client s vs ds := by
  induction vs generalizing s with
  | nil => exact ⟨[], (List.append_nil _).symm, rfl, rfl⟩
  | cons v vs ih =>
    obtain ⟨ds, hlog, houtcomes, hresyncs⟩ := ih (b.submit client v s).2
    obtain ⟨hone, hnone⟩ := countP_told v (b.outcome client v s)
    obtain ⟨hzero, hfailed⟩ := b.total_complaint client v s vs
    refine ⟨.submission v (b.outcome client v s).told :: complaint v (b.resync? client v s) ++ ds, ?_, ?_, ?_⟩
    · rw [← List.append_assoc, ← submit_told]
      exact hlog
    · rw [Counter.total_append, Counter.total_cons, hone, hzero, houtcomes, List.length_cons, Nat.add_comm]
    · rw [Counter.increase_append, Counter.increase_cons, hnone, hresyncs, Nat.zero_add, hfailed]

end Attestor.Submitter
