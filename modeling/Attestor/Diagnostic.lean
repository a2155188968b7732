import Attestor.Chain.Transaction
import Attestor.Contract.Verification
import Attestor.Stream.Exit

/-!
Diagnostics: what the engine tells about its work. Each diagnostic has a stable name. Most are about an event of
the contract: why it was ignored, how a handler failed, what came of an onboarding or of a decision seen on the
chain, and how a verification was submitted.
-/

namespace Attestor

open Contract (Event EventKind Key Status Decision Verification)

/-- Why an event was ignored before any handler did its business. -/
inductive Ignored where
  /-- The event names no known kind. -/
  | unknownKind
  /-- Another contract emitted the event. -/
  | otherContract (expected : String)
  /-- No handler is registered for the kind. -/
  | unhandled (kind : EventKind)
  /-- The event names no verifier. -/
  | noVerifier (kind : EventKind)
  /-- The event names another verifier. -/
  | otherVerifier (kind : EventKind) (registered : String)
  /-- The event lacks an attribute. -/
  | missingAttribute (kind : EventKind) (key : Key)
  deriving DecidableEq, Repr

/-- What came of an onboarding event that is meant for this verifier. -/
inductive Onboarding where
  /-- The scope is no longer pending. -/
  | previouslyProcessed (status : Status)
  | scopeUnavailable (error : String)
  | assetUnavailable (error : String)
  | undecided (error : String)
  /-- A verification was queued. -/
  | queued (decision : Decision)
  deriving DecidableEq, Repr

/-- What came of an event that reports a decision of this verifier. -/
inductive Confirmation where
  /-- The chain has the decision. -/
  | recorded (status : Status)
  /-- The scope is still pending. -/
  | stillPending
  | scopeUnavailable (error : String)
  /-- The event reports another state than the chain has. -/
  | unexpected (reported : Option Status) (actual : Status)
  deriving DecidableEq, Repr

/-- What came of a submission. -/
inductive Submitted where
  | succeeded (receipt : Chain.Receipt)
  /-- The chain answered with a code other than zero. -/
  | rejected (receipt : Chain.Receipt)
  /-- Reading the account, signing or broadcasting failed. -/
  | threw (error : String)
  /-- After a failure the sequence could not be read again. -/
  | resyncFailed (error : String)
  deriving DecidableEq, Repr

/-- A diagnostic. -/
inductive Diagnostic where
  | blockReceived (height : Chain.Height) (eventCount : Nat)
  /-- The tracked height is now this one. -/
  | heightAdvanced (height : Chain.Height)
  /-- The stream has ended and starts again after a delay in milliseconds. -/
  | restarting (height : Option Chain.Height) (attempt : UInt32) (delay : UInt64)
      (error : Option String)
  | restarted (height : Option Chain.Height) (attempt : UInt32)
  | completed (height : Option Chain.Height)
  /-- The run is over. -/
  | exited (exit : Stream.Exit)
  | ignored (event : Event) (reason : Ignored)
  /-- A handler failed or panicked. -/
  | handlerFailed (event : Event) (kind : EventKind) (error : String)
  | onboarding (event : Event) (result : Onboarding)
  | confirmation (event : Event) (result : Confirmation)
  | submission (verification : Verification) (result : Submitted)
  | replayFailed (txHash error : String)
  /-- What integrators have to tell. -/
  | custom (name detail : String)

def Ignored.name : Ignored → String
  | .unknownKind => "event_ignored_unknown_event"
  | .otherContract _ => "event_ignored_contract_mismatch"
  | .unhandled _ => "event_ignored_unhandled_type"
  | .noVerifier _ => "event_ignored_no_verifier_address"
  | .otherVerifier _ _ => "event_ignored_different_verifier_address"
  | .missingAttribute _ _ => "event_ignored_missing_attribute"

def Onboarding.name : Onboarding → String
  | .previouslyProcessed _ => "onboard_event_ignored_previously_processed"
  | .scopeUnavailable _ => "onboard_event_failed_to_fetch_scope_attribute"
  | .assetUnavailable _ => "onboard_event_failed_to_retrieve_asset"
  | .undecided _ => "onboard_event_failed_to_verify_asset"
  | .queued _ => "onboard_event_pre_verify_send"

def Confirmation.name : Confirmation → String
  | .recorded _ => "verify_event_successful"
  | .stillPending => "verify_event_still_pending"
  | .scopeUnavailable _ => "verify_event_failed_to_fetch_scope_attribute"
  | .unexpected _ _ => "verify_event_unexpected_status"

def Submitted.name : Submitted → String
  | .succeeded _ => "submission_succeeded"
  | .rejected _ => "submission_failed"
  | .threw _ => "submission_threw"
  | .resyncFailed _ => "submission_resync_failed"

namespace Diagnostic

/-- The stable name. -/
def name : Diagnostic → String
  | .blockReceived _ _ => "block_received"
  | .heightAdvanced _ => "height_advanced"
  | .restarting _ _ _ _ => "stream_restarting"
  | .restarted _ _ => "stream_restarted"
  | .completed _ => "stream_completed"
  | .exited _ => "stream_exited"
  | .ignored _ reason => reason.name
  | .handlerFailed _ _ _ => "event_handler_failed"
  | .onboarding _ result => result.name
  | .confirmation _ result => result.name
  | .submission _ result => result.name
  | .replayFailed _ _ => "transaction_replay_failed"
  | .custom name _ => name

/-- The contract event that the diagnostic is about. -/
def event : Diagnostic → Option Event
  | .ignored event _ => some event
  | .handlerFailed event _ _ => some event
  | .onboarding event _ => some event
  | .confirmation event _ => some event
  | .submission verification _ => some verification.event
  | _ => none

/-- The event was dropped before any business. -/
def isIgnored : Diagnostic → Bool
  | .ignored _ _ => true
  | _ => false

end Diagnostic

end Attestor
