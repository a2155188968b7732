import Attestor.Handler.Onboard

/-!
The handler of events that report a decision. It compares what the event reports with what the chain has, and
publishes one diagnostic. With the handler of onboarding events it makes up the default registry.
-/

namespace Attestor.Handler

open Contract (Event Status)

/-- What an event that reports `reported` confirms of a scope in the state `actual`. -/
def compare (reported : Option Status) (actual : Status) : Confirmation :=
  if actual = .pending then .stillPending
  else if reported.all (· = actual) then .recorded actual
  else .unexpected reported actual

/-- What is done for an event that reports a decision. -/
def confirming (call : Call) : Activity :=
  call.ifAddressed .verifyAsset fun
    | false => .done
    | true =>
      match call.event.scopeAddress with
      | none => lacking call.event .verifyAsset .scopeAddress
      | some scope =>
        .scopeRecord call.contract scope fun
          | .error failure =>
            .publish (.confirmation call.event (.scopeUnavailable failure.message)) .done
          | .ok record =>
            .publish (.confirmation call.event (compare call.event.newStatus record.status)) .done

/-- The handler of events that report a decision. -/
def confirm : Handler := ofActivity confirming

/-- The default registry: a handler for onboarding events, and one for events that report a decision. -/
def Registry.default : Registry :=
  (Registry.empty.register .onboardAsset onboard).register .verifyAsset confirm

/-- The handlers of the default registry are these two. -/
theorem Registry.of_default {kind : Contract.EventKind} {handler : Handler}
    (h : Registry.default.get? kind = some handler) :
    kind = .verifyAsset ∧ handler = confirm ∨ kind = .onboardAsset ∧ handler = onboard := by
  simp only [Registry.default, Registry.get?_register, Registry.empty] at h
  split at h
  next hkind => exact .inl ⟨hkind, (Option.some.inj h).symm⟩
  next =>
    split at h
    next hkind => exact .inr ⟨hkind, (Option.some.inj h).symm⟩
    next => cases h

end Attestor.Handler
