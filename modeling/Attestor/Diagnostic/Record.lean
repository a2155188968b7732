import Attestor.Diagnostic

/-!
Diagnostics as log records: a level, a message, and named fields beside the diagnostic's name.
-/

namespace Attestor.Diagnostic

/-- How much a record matters. -/
inductive Level where
  | trace
  | debug
  | info
  | warn
  | error
  deriving DecidableEq, Repr

def Level.name : Level → String
  | .trace => "TRACE"
  | .debug => "DEBUG"
  | .info => "INFO"
  | .warn => "WARN"
  | .error => "ERROR"

/-- The value of a field. -/
inductive Value where
  | number (n : Nat)
  | flag (b : Bool)
  | text (s : String)
  /-- An identifier that correlates records of one verification; any will do. -/
  | correlation
  deriving DecidableEq, Repr

/-- A log record. -/
structure Record where
  level : Level
  message : String
  fields : List (String × Value)
  deriving DecidableEq, Repr

/-- A height that may be unknown. -/
def showHeight : Option Chain.Height → String
  | none => "None"
  | some h => s!"Some({h.toNat})"

/-- A state that may be absent. -/
def showStatus : Option Contract.Status → String
  | none => "None"
  | some .pending => "Some(Pending)"
  | some .denied => "Some(Denied)"
  | some .approved => "Some(Approved)"

/-- The record of a failure in handling an event. -/
def eventFailure (event : Contract.Event) (error : String) : Record :=
  ⟨.error, "Event processing failed", [("tx_hash", .text event.txHash), ("error", .text error)]⟩

/-- A record about an event that no one acts on. -/
def passedOver (event : Contract.Event) : Record :=
  ⟨.debug, s!"Ignored {event.summary}", []⟩

/-- The record of an onboarding. -/
def onboardingRecord (event : Contract.Event) : Onboarding → Record
  | .previouslyProcessed _ => passedOver event
  | .scopeUnavailable error => eventFailure event error
  | .assetUnavailable error => eventFailure event error
  | .undecided error => eventFailure event error
  | .queued decision =>
    ⟨.info, "Verification queued", [("tx_hash", .text event.txHash),
      ("scope", .text (event.scopeAddress.getD "")), ("success", .flag decision.success)]⟩

/-- The record of a confirmation. -/
def confirmationRecord (event : Contract.Event) : Confirmation → Record
  | .recorded status =>
    ⟨.info, "Verification recorded on chain",
      [("tx_hash", .text event.txHash), ("status", .text status.name)]⟩
  | .stillPending =>
    ⟨.warn, "Verification event seen but scope is still pending", [("tx_hash", .text event.txHash)]⟩
  | .scopeUnavailable error => eventFailure event error
  | .unexpected reported actual =>
    ⟨.warn, "Unexpected onboarding status", [("tx_hash", .text event.txHash),
      ("reported", .text (showStatus reported)), ("actual", .text actual.name)]⟩

/-- The record of a submission. -/
def submissionRecord (verification : Contract.Verification) : Submitted → Record
  | .succeeded receipt =>
    ⟨.info, s!"{verification.label} Verification submitted",
      [("id", .correlation), ("tx_hash", .text receipt.txHash)]⟩
  | .rejected receipt =>
    ⟨.error, s!"{verification.label} Verification rejected by chain",
      [("id", .correlation), ("code", .number receipt.code.toNat), ("raw_log", .text receipt.rawLog)]⟩
  | .threw error =>
    ⟨.error, s!"{verification.label} Verification submission error",
      [("id", .correlation), ("error", .text error)]⟩
  | .resyncFailed error =>
    ⟨.error, s!"{verification.label} Verification submission error",
      [("id", .correlation), ("error", .text error)]⟩

/-- The record of an exit: an error if the stream failed. -/
def exitRecord (exit : Stream.Exit) : Record :=
  let height := ("height", .text (showHeight exit.lastHeight))
  match exit.reason.error with
  | some error => ⟨.error, "Block stream exited", [height, ("error", .text error)]⟩
  | none => ⟨.info, "Block stream exited", [height, ("reason", .text exit.reason.label)]⟩

/-- The record of a diagnostic, without its name. -/
def unnamedRecord : Diagnostic → Record
  | .blockReceived height count =>
    ⟨.debug, "Block received", [("height", .number height.toNat), ("event_count", .number count)]⟩
  | .heightAdvanced height =>
    ⟨.trace, "Tracked height advanced", [("height", .number height.toNat)]⟩
  | .restarting height attempt delay error =>
    ⟨.warn, "Block stream restarting", [("height", .text (showHeight height)),
      ("attempt", .number attempt.toNat), ("delay_ms", .number delay.toNat),
      ("error", .text (error.getD "stream completed"))]⟩
  | .restarted height attempt =>
    ⟨.info, "Block stream restarted",
      [("height", .text (showHeight height)), ("attempt", .number attempt.toNat)]⟩
  | .completed height => ⟨.info, "Block stream completed", [("height", .text (showHeight height))]⟩
  | .exited exit => exitRecord exit
  | .ignored event _ => passedOver event
  | .handlerFailed event kind error =>
    ⟨.error, "Event handler failed", [("tx_hash", .text event.txHash), ("kind", .text kind.name),
      ("error", .text error)]⟩
  | .onboarding event result => onboardingRecord event result
  | .confirmation event result => confirmationRecord event result
  | .submission verification result => submissionRecord verification result
  | .replayFailed txHash error =>
    ⟨.error, "Transaction replay failed", [("tx_hash", .text txHash), ("error", .text error)]⟩
  | .custom _ detail => ⟨.info, "Custom diagnostic", [("detail", .text detail)]⟩

/-- The record of a diagnostic. -/
def record (d : Diagnostic) : Record :=
  let r := d.unnamedRecord
  { r with fields := ("name", .text d.name) :: r.fields }

end Attestor.Diagnostic
