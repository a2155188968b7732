import Attestor.Handler.Registry

/-!
The handler of onboarding events. A scope whose asset is still pending gets a decision, which is queued for
submission. Whatever happens, the handler publishes one diagnostic.
-/

namespace Attestor.Handler

open Contract (Event ScopeRecord Verification)

/-- Publishes what came of an onboarding, and is done. -/
def conclude (event : Event) (result : Onboarding) : Activity :=
  .publish (.onboarding event result) .done

/-- Retrieves the asset of a scope, decides about it, and queues the decision. -/
def decide (event : Event) (scope : ScopeRecord) : Activity :=
  .retrieve scope fun
    | .error fault => conclude event (.assetUnavailable fault.message)
    | .ok asset =>
      .verify scope asset fun
        | .error fault => conclude event (.undecided fault.message)
        | .ok decision =>
          .enqueue ⟨event, scope, decision⟩ (conclude event (.queued decision))

/-- Looks up a scope, and goes on only if it is pending. -/
def inspect (call : Call) (scope : String) : Activity :=
  .scopeRecord call.contract scope fun
    | .error failure => conclude call.event (.scopeUnavailable failure.message)
    | .ok record =>
      if record.status = .pending then decide call.event record
      else conclude call.event (.previouslyProcessed record.status)

/-- Publishes that an attribute is missing, and is done. -/
def lacking (event : Event) (kind : Contract.EventKind) (key : Contract.Key) : Activity :=
  .publish (.ignored event (.missingAttribute kind key)) .done

/-- What is done for an onboarding event. -/
def onboarding (call : Call) : Activity :=
  call.ifAddressed .onboardAsset fun
    | false => .done
    | true =>
      match call.event.scopeAddress, call.event.assetType with
      | none, _ => lacking call.event .onboardAsset .scopeAddress
      | some _, none => lacking call.event .onboardAsset .assetType
      | some scope, some _ => inspect call scope

/-- The handler of onboarding events. -/
def onboard : Handler := ofActivity onboarding

end Attestor.Handler
