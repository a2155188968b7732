import Attestor.Handler.Confirm
import Attestor.Progress

/-!
Routing. An event of the contract goes to the handler of its kind, unless one of three filters drops it: its
kind is not known, another contract emitted it, or no handler is registered, in this order. A handler that
fails or panics in its activity is reported; that is the end of the matter for whoever routed the event.

`route` takes an event to its end. An `Agenda` is a list of events on their way, one effect at a time.
-/

namespace Attestor.Routing

open Contract (Event EventKind)
open Handler (Activity Ending Registry)

/-- What became of an event. -/
inductive Outcome where
  | unknownEvent
  | contractMismatch
  | unhandled (kind : EventKind)
  | handled (kind : EventKind)
  | handlerFailed (kind : EventKind)
  deriving DecidableEq, Repr

/-- What routing needs to know. -/
structure Router where
  /-- The address of the watched contract. -/
  contract : String
  signer : Signing.Signer
  registry : Registry

/-- Where an event goes. -/
inductive Direction where
  | ignore (outcome : Outcome) (reason : Ignored)
  | handle (kind : EventKind) (handler : Handler)

/-- The filters, and the handler of an event that passes them. -/
def Router.direct (r : Router) (e : Event) : Direction :=
  match e.kind with
  | none => .ignore .unknownEvent .unknownKind
  | some kind =>
    if e.contractAddress = some r.contract then
      match r.registry.get? kind with
      | none => .ignore (.unhandled kind) (.unhandled kind)
      | some handler => .handle kind handler
    else .ignore .contractMismatch (.otherContract r.contract)

/-- Calls a handler. -/
def Router.call (r : Router) (e : Event) (handler : Handler) : Except Panic Activity :=
  handler ⟨e, r.contract, r.signer⟩

/-- What is reported of an activity that ended, if anything. -/
def complaint : Ending → Option String
  | .done => none
  | .failed error => some error.message
  | .panicked p => some s!"handler panicked: {p.message}"

variable {χ σ ρ π : Type}

/-- Reports an activity that ended, if it has to be. -/
def report (e : Event) (kind : EventKind) (ending : Ending) (s : Shared χ σ π) : Shared χ σ π :=
  match complaint ending with
  | none => s
  | some error => s.publish (.handlerFailed e kind error)

/-- What became of an event whose handler ended. -/
def outcome (kind : EventKind) (ending : Ending) : Outcome :=
  match complaint ending with
  | none => .handled kind
  | some _ => .handlerFailed kind

/-! ### One event to its end -/

/-- How routing an event ended. -/
inductive Routed where
  | settled (outcome : Outcome)
  /-- The handler never returns. -/
  | hung
  /-- Calling the handler panicked. -/
  | crashed (p : Panic)
  deriving DecidableEq, Repr

/-- Routes an event to its end. -/
def Router.route (r : Router) (c : Collaborators χ σ ρ π) (e : Event) (s : Shared χ σ π) :
    Routed × Shared χ σ π :=
  match r.direct e with
  | .ignore outcome reason => (.settled outcome, s.publish (.ignored e reason))
  | .handle kind handler =>
    match r.call e handler with
    | .error p => (.crashed p, s)
    | .ok activity =>
      match activity.run c s with
      | (none, s) => (.hung, s)
      | (some ending, s) => (.settled (outcome kind ending), report e kind ending s)

/-- Routes events to their ends, one after the other, as long as they have one. Gives how it ended: with a
number of events, or not. -/
def Router.routeAll (r : Router) (c : Collaborators χ σ ρ π) :
    List Event → Shared χ σ π → Except Routed Nat × Shared χ σ π
  | [], s => (.ok 0, s)
  | e :: es, s =>
    match r.route c e s with
    | (.settled _, s) =>
      match r.routeAll c es s with
      | (.ok n, s) => (.ok (n + 1), s)
      | other => other
    | (stuck, s) => (.error stuck, s)

/-! ### Events on their way -/

/-- An event with its handler. -/
structure Dispatch where
  event : Event
  kind : EventKind
  activity : Activity

/-- Events on their way: the one that is being handled, and those that come after. -/
structure Agenda where
  current : Option Dispatch
  waiting : List Event

namespace Agenda

/-- Events of which none has been touched. -/
def ofEvents (events : List Event) : Agenda := ⟨none, events⟩

/-- Goes on with the event that is being handled. -/
def handle (c : Collaborators χ σ ρ π) (d : Dispatch) (waiting : List Event) (s : Shared χ σ π) :
    Progress (Agenda × Shared χ σ π) :=
  match d.activity.ending? with
  | some ending => .moved (⟨none, waiting⟩, report d.event d.kind ending s)
  | none =>
    match d.activity with
    | .hang => .blocked
    | activity =>
      match activity.step c s with
      | (rest, s) => .moved (⟨some { d with activity := rest }, waiting⟩, s)

/-- Turns to the next event. -/
def turn (r : Router) (e : Event) (waiting : List Event) (s : Shared χ σ π) :
    Progress (Agenda × Shared χ σ π) :=
  match r.direct e with
  | .ignore _ reason => .moved (⟨none, waiting⟩, s.publish (.ignored e reason))
  | .handle kind handler =>
    match r.call e handler with
    | .error p => .crashed p
    | .ok activity => .moved (⟨some ⟨e, kind, activity⟩, waiting⟩, s)

/-- Performs one effect. The agenda is over when no event is left. -/
def step (r : Router) (c : Collaborators χ σ ρ π) (a : Agenda) (s : Shared χ σ π) :
    Progress (Agenda × Shared χ σ π) :=
  match a.current, a.waiting with
  | some d, waiting => handle c d waiting s
  | none, [] => .over
  | none, e :: waiting => turn r e waiting s

end Agenda

end Attestor.Routing
