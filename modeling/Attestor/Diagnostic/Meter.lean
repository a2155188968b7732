import Attestor.Diagnostic

/-!
Counters. Each diagnostic raises some counters by one; what a list of diagnostics raises does not depend on
their order. Restart delays are counted in cumulative buckets whose bounds double from a tenth of a second.
-/

namespace Attestor

/-- A counter. Counters of one family differ by a label. -/
inductive Counter where
  | blocksReceived
  | restarts
  | exits (reason : String)
  /-- Delays of at most this many milliseconds. -/
  | delayAtMost (bound : Nat)
  /-- Delays of any length, as the last bucket. -/
  | delayBucket
  /-- Delays of any length, as the number of observations. -/
  | delayCount
  | ignored (reason : String)
  | onboarding (outcome : String)
  | confirmation (outcome : String)
  | handlerFailures (kind : String)
  | submissions (outcome : String)
  deriving DecidableEq, Repr

namespace Counter

/-- Tenths of a second as seconds, with one decimal. -/
def seconds (bound : Nat) : String :=
  let whole := bound / 1000
  let tenths := bound / 100 % 10
  s!"{whole}.{tenths}"

/-- A label in braces. -/
def labelled (family label value : String) : String :=
  s!"{family}\x7b{label}=\"{value}\"\x7d"

/-- The counter as it is exposed. -/
def exposition : Counter → String
  | .blocksReceived => "ac_verifier_stream_blocks_received_total"
  | .restarts => "ac_verifier_stream_restarts_total"
  | .exits reason => labelled "ac_verifier_stream_exits_total" "reason" reason
  | .delayAtMost bound =>
    labelled "ac_verifier_stream_restart_delay_seconds_bucket" "le" (seconds bound)
  | .delayBucket => labelled "ac_verifier_stream_restart_delay_seconds_bucket" "le" "+Inf"
  | .delayCount => "ac_verifier_stream_restart_delay_seconds_count"
  | .ignored reason => labelled "ac_verifier_events_ignored_total" "reason" reason
  | .onboarding outcome => labelled "ac_verifier_onboard_events_total" "outcome" outcome
  | .confirmation outcome => labelled "ac_verifier_verify_events_total" "outcome" outcome
  | .handlerFailures kind => labelled "ac_verifier_handler_failures_total" "event_kind" kind
  | .submissions outcome => labelled "ac_verifier_submissions_total" "outcome" outcome

/-- The bounds of the delay buckets, in milliseconds. -/
def delayBounds : List Nat :=
  (List.range 14).map (100 <<< ·)

/-- The counters that a delay raises. -/
def ofDelay (delay : UInt64) : List Counter :=
  (delayBounds.filter (delay.toNat ≤ ·)).map .delayAtMost ++ [.delayBucket, .delayCount]

end Counter

def Onboarding.outcome : Onboarding → String
  | .previouslyProcessed _ => "previously_processed"
  | .scopeUnavailable _ => "failed"
  | .assetUnavailable _ => "failed"
  | .undecided _ => "failed"
  | .queued _ => "queued"

def Confirmation.outcome : Confirmation → String
  | .recorded _ => "successful"
  | .stillPending => "still_pending"
  | .scopeUnavailable _ => "failed"
  | .unexpected _ _ => "failed"

def Submitted.outcome : Submitted → String
  | .succeeded _ => "succeeded"
  | .rejected _ => "failed"
  | .threw _ => "threw"
  | .resyncFailed _ => "resync_failed"

namespace Diagnostic

/-- The counters that a diagnostic raises by one. -/
def counters : Diagnostic → List Counter
  | .blockReceived _ _ => [.blocksReceived]
  | .restarting _ _ delay _ => Counter.ofDelay delay
  | .restarted _ _ => [.restarts]
  | .exited exit => [.exits exit.reason.label]
  | .ignored _ reason => [.ignored reason.name]
  | .handlerFailed _ kind _ => [.handlerFailures kind.name]
  | .onboarding _ result => [.onboarding result.outcome]
  | .confirmation _ result => [.confirmation result.outcome]
  | .submission _ result => [.submissions result.outcome]
  | _ => []

/-- The height that the tracked-height gauge shows after a diagnostic, if it sets it. -/
def trackedHeight : Diagnostic → Option Chain.Height
  | .heightAdvanced height => some height
  | _ => none

end Diagnostic

namespace Counter

/-- By how much a list of diagnostics raises a counter. -/
def increase (c : Counter) (ds : List Diagnostic) : Nat :=
  (ds.flatMap Diagnostic.counters).count c

/-- The counters that a list of diagnostics raises, each once, with the increase. -/
def increases (ds : List Diagnostic) : List (Counter × Nat) :=
  (ds.flatMap Diagnostic.counters).eraseDups.map fun c => (c, c.increase ds)

end Counter

end Attestor
