import Attestor.Handler.Activity
import Attestor.Signing.Signer

/-!
Handlers and their registry. A handler is called with an event and gives an activity. Calling it may panic
before there is an activity; such a panic is not part of any activity.
-/

namespace Attestor

/-- What a handler is called with. -/
structure Handler.Call where
  event : Contract.Event
  /-- The address of the watched contract. -/
  contract : String
  signer : Signing.Signer

/-- A handler of contract events. -/
abbrev Handler := Handler.Call → Except Panic Handler.Activity

namespace Handler

/-- The handler that does the same activity for each call and does not panic when it is called. -/
def ofActivity (activity : Call → Activity) : Handler :=
  fun call => .ok (activity call)

/-- Goes on with whether the event is meant for this verifier; if not, says so first. -/
def Call.ifAddressed (call : Call) (kind : Contract.EventKind) (rest : Bool → Activity) : Activity :=
  match call.event.verifierAddress with
  | none => .publish (.ignored call.event (.noVerifier kind)) (rest false)
  | some address =>
    if call.signer.isAddressedBy address then rest true
    else .publish (.ignored call.event (.otherVerifier kind call.signer.address)) (rest false)

/-- The handler registered for each kind of event. -/
structure Registry where
  get? : Contract.EventKind → Option Handler

namespace Registry

/-- No handlers. -/
def empty : Registry := ⟨fun _ => none⟩

/-- Registers a handler in place of any other for its kind. -/
def register (r : Registry) (kind : Contract.EventKind) (h : Handler) : Registry :=
  ⟨fun k => if k = kind then some h else r.get? k⟩

/-- Removes the handler of a kind. -/
def remove (r : Registry) (kind : Contract.EventKind) : Registry :=
  ⟨fun k => if k = kind then none else r.get? k⟩

/-- There is a handler for the kind. -/
def contains (r : Registry) (kind : Contract.EventKind) : Bool :=
  (r.get? kind).isSome

/-- The kinds that have a handler. -/
def kinds (r : Registry) : List Contract.EventKind :=
  Contract.EventKind.all.filter r.contains

@[simp] theorem get?_register (r : Registry) (kind k : Contract.EventKind) (h : Handler) :
    (r.register kind h).get? k = if k = kind then some h else r.get? k := rfl

@[simp] theorem get?_remove (r : Registry) (kind k : Contract.EventKind) :
    (r.remove kind).get? k = if k = kind then none else r.get? k := rfl

end Registry

end Handler

end Attestor
