import Attestor.Proofs.Classification
import Attestor.Proofs.Routings

/-!
The gate before the handlers, for any registry that was ever built and any handlers in it.

Of the handlers that were registered for a kind the last one counts, unless it was removed since (`LastRegistered`).
An event is admitted to it if the event's kind is known and the watched contract emitted it (`Admits`). `calls` are the
calls of handlers that routing makes, recorded while it makes them.

`Router.route_gated`: routing calls one handler once if the event is admitted to one, and none otherwise; what it does
besides is what that handler does; and then it says itself what became of the event, unless the handler completed.
-/

namespace Attestor.Routing

open Contract (Event EventKind Key)
open Handler (Activity Call Effect Ending Performed Registry)
open Handler.Activity (Course)

variable {χ σ ρ π : Type}

/-! ### Registries and how they came about -/

/-- A change to a registry. Registering in place and registering on the way are one. -/
inductive Registration where
  | register (kind : EventKind) (handler : Handler)
  | remove (kind : EventKind)

namespace Registration

/-- The kind whose handler changes. -/
def kind : Registration → EventKind
  | .register kind _ => kind
  | .remove kind => kind

def apply (r : Registry) : Registration → Registry
  | .register kind handler => r.register kind handler
  | .remove kind => r.remove kind

end Registration

/-- The registry that the changes make of an empty one. -/
def registryOf (changes : List Registration) : Registry :=
  changes.foldl Registration.apply .empty

/-- The handler was registered for the kind, and nothing has changed about this kind since. -/
def LastRegistered (changes : List Registration) (kind : EventKind) (handler : Handler) : Prop :=
  ∃ before after, changes = before ++ .register kind handler :: after ∧ ∀ change ∈ after, change.kind ≠ kind

theorem lastRegistered_cons {change : Registration} {changes : List Registration} {kind : EventKind}
    {handler : Handler} : LastRegistered (change :: changes) kind handler ↔
      LastRegistered changes kind handler ∨
        change = .register kind handler ∧ ∀ later ∈ changes, later.kind ≠ kind := by
  constructor
  · rintro ⟨before, after, hsplit, hafter⟩
    cases before with
    | nil =>
      obtain ⟨rfl, rfl⟩ := List.cons.inj hsplit
      exact .inr ⟨rfl, hafter⟩
    | cons first before =>
      obtain ⟨-, rfl⟩ := List.cons.inj hsplit
      exact .inl ⟨before, after, rfl, hafter⟩
  · rintro (⟨before, after, rfl, hafter⟩ | ⟨rfl, hlater⟩)
    · exact ⟨change :: before, after, rfl, hafter⟩
    · exact ⟨[], changes, rfl, hlater⟩

/-- Changes leave what was there under a kind that none of them is about. -/
theorem get?_foldl_apply (changes : List Registration) (r : Registry) (kind : EventKind) (handler : Handler) :
    (changes.foldl Registration.apply r).get? kind = some handler ↔
      LastRegistered changes kind handler ∨
        (∀ change ∈ changes, change.kind ≠ kind) ∧ r.get? kind = some handler := by
  induction changes generalizing r with
  | nil =>
    refine ⟨fun h => .inr ⟨nofun, h⟩, ?_⟩
    rintro (⟨before, after, hsplit, -⟩ | ⟨-, h⟩)
    · simp at hsplit
    · exact h
  | cons change changes ih =>
    rw [List.foldl_cons, ih, lastRegistered_cons, List.forall_mem_cons]
    cases change with
    | register other replaced =>
      rw [Registration.apply, Registry.get?_register, Registration.kind, Registration.register.injEq]
      split
      next hkind =>
        subst hkind
        simp only [Option.some.injEq, ne_eq, not_true_eq_false, false_and, or_false, true_and]
        rw [and_comm]
      next hkind => simp [Ne.symm hkind]
    | remove other =>
      rw [Registration.apply, Registry.get?_remove, Registration.kind]
      split
      next hkind => simp [hkind]
      next hkind => simp [Ne.symm hkind]

/-- What stands under a kind is what was registered last. -/
theorem get?_registryOf {changes : List Registration} {kind : EventKind} {handler : Handler} :
    (registryOf changes).get? kind = some handler ↔ LastRegistered changes kind handler := by
  rw [registryOf, get?_foldl_apply]
  exact or_iff_left fun h => nomatch h.2

/-! ### Which events are admitted -/

/-- The watched contract emitted the event: the event names it, and the name is not blank. -/
def EmittedBy (contract : String) (e : Event) : Prop :=
  e.attributes.get? Key.contractAddress.text = some contract ∧ Text.trim contract ≠ ""

theorem emittedBy_iff {contract : String} {e : Event} : EmittedBy contract e ↔ e.contractAddress = some contract := by
  rw [Event.contractAddress, Event.value?, Option.bind_eq_some_iff, EmittedBy]
  constructor
  · rintro ⟨hget, hblank⟩
    exact ⟨contract, hget, Contract.nonBlank_eq_some_iff.mpr ⟨rfl, hblank⟩⟩
  · rintro ⟨value, hget, hvalue⟩
    obtain ⟨rfl, hblank⟩ := Contract.nonBlank_eq_some_iff.mp hvalue
    exact ⟨hget, hblank⟩

/-- The event is admitted to the handler. -/
structure Admits (r : Router) (changes : List Registration) (e : Event) (kind : EventKind) (handler : Handler) :
    Prop where
  known : e.kind = some kind
  emitted : EmittedBy r.contract e
  registered : LastRegistered changes kind handler

theorem Admits.unique {r : Router} {changes : List Registration} {e : Event} {kind other : EventKind}
    {handler replaced : Handler} (h : Admits r changes e kind handler) (hother : Admits r changes e other replaced) :
    handler = replaced := by
  obtain rfl := Option.some.inj (h.known.symm.trans hother.known)
  have hget := get?_registryOf.mpr h.registered
  rw [get?_registryOf.mpr hother.registered] at hget
  exact (Option.some.inj hget).symm

/-! ### Recorded calls -/

/-- Routes an event to its end, where it is for `invoke` to call a handler. -/
def Router.routeVia {m : Type → Type} [Monad m] (invoke : Handler → Call → m (Except Panic Activity)) (r : Router)
    (c : Collaborators χ σ ρ π) (e : Event) (s : Shared χ σ π) : m (Routed × Shared χ σ π) :=
  match r.direct e with
  | .ignore outcome reason => return (.settled outcome, s.publish (.ignored e reason))
  | .handle kind handler => do
    match ← invoke handler ⟨e, r.contract, r.signer⟩ with
    | .error p => return (.crashed p, s)
    | .ok activity =>
      match activity.run c s with
      | (none, s) => return (.hung, s)
      | (some ending, s) => return (.settled (outcome kind ending), report e kind ending s)

/-- Calls a handler and notes the call. -/
def recorded (handler : Handler) (call : Call) : StateM (List (Handler × Call)) (Except Panic Activity) :=
  fun calls => (handler call, calls ++ [(handler, call)])

/-- The calls of handlers that routing the event makes. -/
def Router.calls (r : Router) (c : Collaborators χ σ ρ π) (e : Event) (s : Shared χ σ π) : List (Handler × Call) :=
  (r.routeVia recorded c e s []).2

theorem Router.routeVia_ignored {r : Router} {e : Event} {outcome : Outcome} {reason : Ignored}
    (h : r.direct e = .ignore outcome reason) (c : Collaborators χ σ ρ π) (s : Shared χ σ π) :
    r.routeVia recorded c e s [] = (r.route c e s, []) := by
  rw [routeVia, route, h]
  rfl

theorem Router.routeVia_handled {r : Router} {e : Event} {kind : EventKind} {handler : Handler}
    (h : r.direct e = .handle kind handler) (c : Collaborators χ σ ρ π) (s : Shared χ σ π) :
    r.routeVia recorded c e s [] = (r.route c e s, [(handler, ⟨e, r.contract, r.signer⟩)]) := by
  have hcall : recorded handler ⟨e, r.contract, r.signer⟩ [] =
      (r.call e handler, [(handler, ⟨e, r.contract, r.signer⟩)]) := rfl
  simp only [routeVia, route, h, bind, StateT.bind, hcall]
  cases r.call e handler with
  | error p => rfl
  | ok a =>
    dsimp only
    rcases a.run c s with ⟨_ | ending, s'⟩ <;> rfl

/-! ### What becomes of an event -/

/-- The handler that is called so has these effects, in this order, and ends so. -/
def Does (handler : Handler) (call : Call) (did : List Effect) (ending : Ending) : Prop :=
  ∃ a b, handler call = .ok a ∧ Course a did b ∧ b.ending? = some ending

/-- The handler that is called so gives an activity that comes to an end. -/
def Returns (handler : Handler) (call : Call) (c : Collaborators χ σ ρ π) (s : Shared χ σ π) : Prop :=
  ∃ a ending, handler call = .ok a ∧ (a.run c s).1 = some ending

/-- What becomes of an event: the calls of handlers, what these do, the outcome, and what the router says itself. The
filters stand in the order in which the first one that applies drops the event. -/
inductive Concludes (r : Router) (changes : List Registration) (e : Event) :
    List (Handler × Call) → List Effect → Outcome → List Diagnostic → Prop where
  | unknownEvent (unknown : e.kind = none) : Concludes r changes e [] [] .unknownEvent [.ignored e .unknownKind]
  | contractMismatch {kind} (known : e.kind = some kind) (other : ¬ EmittedBy r.contract e) :
      Concludes r changes e [] [] .contractMismatch [.ignored e (.otherContract r.contract)]
  | unhandled {kind} (known : e.kind = some kind) (emitted : EmittedBy r.contract e)
      (unregistered : ∀ handler, ¬ LastRegistered changes kind handler) :
      Concludes r changes e [] [] (.unhandled kind) [.ignored e (.unhandled kind)]
  | handled {kind handler did} (admits : Admits r changes e kind handler)
      (does : Does handler ⟨e, r.contract, r.signer⟩ did .done) :
      Concludes r changes e [(handler, ⟨e, r.contract, r.signer⟩)] did (.handled kind) []
  | failed {kind handler did error} (admits : Admits r changes e kind handler)
      (does : Does handler ⟨e, r.contract, r.signer⟩ did (.failed error)) :
      Concludes r changes e [(handler, ⟨e, r.contract, r.signer⟩)] did (.handlerFailed kind)
        [.handlerFailed e kind error.message]
  | panicked {kind handler did p} (admits : Admits r changes e kind handler)
      (does : Does handler ⟨e, r.contract, r.signer⟩ did (.panicked p)) :
      Concludes r changes e [(handler, ⟨e, r.contract, r.signer⟩)] did (.handlerFailed kind)
        [.handlerFailed e kind s!"handler panicked: {p.message}"]

/-- The outcome that a diagnostic of the router stands for. -/
def Outcome.of? : Diagnostic → Option Outcome
  | .ignored _ .unknownKind => some .unknownEvent
  | .ignored _ (.otherContract _) => some .contractMismatch
  | .ignored _ (.unhandled kind) => some (.unhandled kind)
  | .handlerFailed _ kind _ => some (.handlerFailed kind)
  | _ => none

/-- What passing an event through the gate comes to. -/
structure Gated (r : Router) (changes : List Registration) (c : Collaborators χ σ ρ π) (e : Event)
    (s : Shared χ σ π) : Prop where
  /-- Recording the calls changes nothing. -/
  recorded : (r.routeVia recorded c e s []).1 = r.route c e s
  /-- A handler is called exactly if the event is admitted to it. -/
  called : ∀ handler call, (handler, call) ∈ r.calls c e s ↔
    call = ⟨e, r.contract, r.signer⟩ ∧ ∃ kind, Admits r changes e kind handler
  once : (r.calls c e s).length ≤ 1
  /-- What the handler does comes first, then what the router says itself. -/
  concludes : ∃ did outcome own after, Concludes r changes e (r.calls c e s) did outcome own ∧
    Performed c s did after ∧ r.route c e s = (.settled outcome, own.foldl Shared.publish after) ∧
    (r.route c e s).2.diagnostics.log = s.diagnostics.log ++ did.flatMap Effect.told ++ own ∧
    (r.route c e s).2.outbound.log = s.outbound.log ++ did.flatMap Effect.queued ∧
    own.length ≤ 1 ∧ (own = [] ↔ ∃ kind, outcome = .handled kind) ∧
    ∀ d ∈ own, d.event = some e ∧ Outcome.of? d = some outcome

/-- An event whose handler ended. -/
theorem Does.of_run {handler : Handler} {call : Call} {a : Activity} (hcall : handler call = .ok a)
    {c : Collaborators χ σ ρ π} {s : Shared χ σ π} {ending : Ending} (hrun : (a.run c s).1 = some ending) :
    Does handler call (a.effects c s) ending := by
  obtain ⟨-, b, hcourse, hend, -⟩ := Activity.run_effects c a s
  exact ⟨a, b, hcall, hcourse, hend.trans hrun⟩

/-- An event that a filter drops was dropped by the first one that applies. -/
theorem concludes_ignored {r : Router} {changes : List Registration} (hr : r.registry = registryOf changes)
    {e : Event} {outcome : Outcome} {reason : Ignored} (h : r.direct e = .ignore outcome reason) :
    Concludes r changes e [] [] outcome [.ignored e reason] := by
  unfold Router.direct at h
  split at h
  next hkind =>
    obtain ⟨rfl, rfl⟩ := Direction.ignore.inj h
    exact .unknownEvent hkind
  next kind hkind =>
    split at h
    next hcontract =>
      split at h
      next hget =>
        obtain ⟨rfl, rfl⟩ := Direction.ignore.inj h
        refine .unhandled hkind (emittedBy_iff.mpr hcontract) fun handler hregistered => ?_
        rw [hr, get?_registryOf.mpr hregistered] at hget
        cases hget
      next => cases h
    next hcontract =>
      obtain ⟨rfl, rfl⟩ := Direction.ignore.inj h
      exact .contractMismatch hkind (mt emittedBy_iff.mp hcontract)

/-- What is reported of a handler that ended is what the event comes to. -/
theorem concludes_reports {r : Router} {changes : List Registration} {e : Event} {kind : EventKind}
    {handler : Handler} (hadmits : Admits r changes e kind handler) {did : List Effect} {ending : Ending}
    (hdoes : Does handler ⟨e, r.contract, r.signer⟩ did ending) :
    Concludes r changes e [(handler, ⟨e, r.contract, r.signer⟩)] did (outcome kind ending)
      (reports e kind ending) := by
  cases ending with
  | done => exact .handled hadmits hdoes
  | failed error => exact .failed hadmits hdoes
  | panicked p => exact .panicked hadmits hdoes

theorem report_eq_foldl (e : Event) (kind : EventKind) (ending : Ending) (s : Shared χ σ π) :
    report e kind ending s = (reports e kind ending).foldl Shared.publish s := by
  unfold report reports
  cases complaint ending <;> rfl

namespace Concludes

variable {r : Router} {changes : List Registration} {e : Event} {calls : List (Handler × Call)} {did : List Effect}
  {outcome : Outcome} {own : List Diagnostic}

/-- The router says nothing of an event that was handled, and one thing of any other. -/
theorem said (h : Concludes r changes e calls did outcome own) :
    own.length ≤ 1 ∧ (own = [] ↔ ∃ kind, outcome = .handled kind) := by
  cases h <;> simp

/-- The outcome is the one that the router's diagnostic stands for. -/
theorem named (h : Concludes r changes e calls did outcome own) {d : Diagnostic} (hd : d ∈ own) :
    d.event = some e ∧ Outcome.of? d = some outcome := by
  cases h with
  | handled => cases hd
  | _ =>
    obtain rfl := List.mem_singleton.mp hd
    exact ⟨rfl, rfl⟩

/-- A handler is called exactly if the event is admitted to it, and once. -/
theorem called (h : Concludes r changes e calls did outcome own) : calls.length ≤ 1 ∧
    ∀ handler call, (handler, call) ∈ calls ↔
      call = ⟨e, r.contract, r.signer⟩ ∧ ∃ kind, Admits r changes e kind handler := by
  have hone {kind : EventKind} {handler : Handler} (hadmits : Admits r changes e kind handler) (other : Handler)
      (call : Call) : (other, call) ∈ [(handler, (⟨e, r.contract, r.signer⟩ : Call))] ↔
        call = ⟨e, r.contract, r.signer⟩ ∧ ∃ kind, Admits r changes e kind other := by
    rw [List.mem_singleton, Prod.mk.injEq]
    constructor
    · rintro ⟨rfl, rfl⟩
      exact ⟨rfl, kind, hadmits⟩
    · rintro ⟨rfl, _, hother⟩
      exact ⟨hother.unique hadmits, rfl⟩
  have hnone (h : ∀ kind handler, ¬ Admits r changes e kind handler) (handler : Handler) (call : Call) :
      (handler, call) ∈ ([] : List (Handler × Call)) ↔
        call = ⟨e, r.contract, r.signer⟩ ∧ ∃ kind, Admits r changes e kind handler :=
    iff_of_false List.not_mem_nil fun ⟨_, kind, hadmits⟩ => h kind handler hadmits
  cases h with
  | unknownEvent unknown =>
    exact ⟨Nat.zero_le _, hnone fun kind handler h => nomatch unknown.symm.trans h.known⟩
  | contractMismatch known other => exact ⟨Nat.zero_le _, hnone fun kind handler h => other h.emitted⟩
  | unhandled known emitted unregistered =>
    refine ⟨Nat.zero_le _, hnone fun kind handler h => ?_⟩
    obtain rfl := Option.some.inj (known.symm.trans h.known)
    exact unregistered handler h.registered
  | handled hadmits => exact ⟨Nat.le_refl _, hone hadmits⟩
  | failed hadmits => exact ⟨Nat.le_refl _, hone hadmits⟩
  | panicked hadmits => exact ⟨Nat.le_refl _, hone hadmits⟩

end Concludes

theorem diagnostics_foldl_publish (own : List Diagnostic) (s : Shared χ σ π) :
    (own.foldl Shared.publish s).diagnostics.log = s.diagnostics.log ++ own := by
  induction own generalizing s with
  | nil => exact (List.append_nil _).symm
  | cons d own ih =>
    rw [List.foldl_cons, ih, Shared.publish, Queue.log_publish, List.append_assoc, List.singleton_append]

theorem outbound_foldl_publish (own : List Diagnostic) (s : Shared χ σ π) :
    (own.foldl Shared.publish s).outbound = s.outbound := by
  induction own generalizing s with
  | nil => rfl
  | cons d own ih => rw [List.foldl_cons, ih, Shared.outbound_publish]

/-! ### The gate -/

/-- Routing an event comes to a conclusion, if the handler that it is admitted to returns. -/
theorem Router.route_concludes_of_returns {r : Router} {changes : List Registration}
    (hr : r.registry = registryOf changes) (c : Collaborators χ σ ρ π) (e : Event) (s : Shared χ σ π)
    (hreturns : ∀ kind handler, Admits r changes e kind handler → Returns handler ⟨e, r.contract, r.signer⟩ c s) :
    (r.routeVia recorded c e s []).1 = r.route c e s ∧
      ∃ did outcome own after, Concludes r changes e (r.calls c e s) did outcome own ∧
        Performed c s did after ∧ r.route c e s = (.settled outcome, own.foldl Shared.publish after) := by
  cases hdirect : r.direct e with
  | ignore outcome reason =>
    obtain ⟨-, hroute⟩ := route_ignored hdirect c s
    rw [calls, routeVia_ignored hdirect, hroute]
    exact ⟨rfl, _, _, [.ignored e reason], s, concludes_ignored hr hdirect, .nil, rfl⟩
  | handle kind handler =>
    obtain ⟨hkind, hcontract, hget⟩ := Router.of_direct hdirect
    have hadmits : Admits r changes e kind handler :=
      ⟨hkind, emittedBy_iff.mpr hcontract, get?_registryOf.mp (hr ▸ hget)⟩
    obtain ⟨a, ending, hcall, hrun⟩ := hreturns kind handler hadmits
    obtain ⟨-, hroute⟩ := route_handled hdirect hcall c (Prod.ext hrun rfl : a.run c s = (some ending, _))
    rw [calls, routeVia_handled hdirect, hroute]
    exact ⟨rfl, _, _, _, _, concludes_reports hadmits (Does.of_run hcall hrun), (Activity.run_effects c a s).1,
      by rw [report_eq_foldl]⟩

/-- **Routing calls the handler that was last registered for the event's kind, once, if the watched contract emitted
the event, and none otherwise**, in whatever way the registry came about and whatever its handlers do once they are
called, as long as they return. What the handler publishes and queues is kept; then the router says itself what became
of the event, unless the handler completed, and the outcome is what it says. -/
theorem Router.route_gated {r : Router} {changes : List Registration} (hr : r.registry = registryOf changes)
    (c : Collaborators χ σ ρ π) (e : Event) (s : Shared χ σ π)
    (hreturns : ∀ kind handler, Admits r changes e kind handler → Returns handler ⟨e, r.contract, r.signer⟩ c s) :
    Gated r changes c e s := by
  obtain ⟨hrecorded, did, outcome, own, after, hconcludes, hperformed, hroute⟩ :=
    route_concludes_of_returns hr c e s hreturns
  obtain ⟨honce, hcalled⟩ := hconcludes.called
  obtain ⟨hsaid, hhandled⟩ := hconcludes.said
  refine ⟨hrecorded, hcalled, honce, did, outcome, own, after, hconcludes, hperformed, hroute, ?_, ?_, hsaid, hhandled,
    fun d hd => hconcludes.named hd⟩
  · rw [hroute, diagnostics_foldl_publish, hperformed.diagnostics]
  · rw [hroute, outbound_foldl_publish, hperformed.outbound]

namespace Sample

/-- A handler that has told something before it panics. -/
def flawed : Handler :=
  .ofActivity fun call => .publish (.onboarding call.event (.scopeUnavailable "later")) (.panic (.text "out of range"))

/-- The default handler for onboardings is replaced, and another one is removed. -/
def changes : List Registration :=
  [.register .onboardAsset Handler.onboard, .register .verifyAsset flawed, .register .onboardAsset flawed,
    .remove .verifyAsset]

def changed : Router := { router with registry := registryOf changes }

theorem flawed_returns (call : Call) : Returns flawed call collaborators shared :=
  ⟨_, .panicked (.text "out of range"), rfl, rfl⟩

theorem admits_flawed {kind : EventKind} {handler : Handler} (h : Admits changed changes event kind handler) :
    handler = flawed := by
  have hkind : event.kind = some .onboardAsset := by decide
  obtain rfl := Option.some.inj (hkind.symm.trans h.known)
  have hget := get?_registryOf.mpr h.registered
  exact (Option.some.inj hget).symm

/-- The handler that replaced the default one is called, and its panic is reported after what it told. -/
theorem changed_gated :
    Gated changed changes collaborators event shared ∧
      (changed.route collaborators event shared).1 = .settled (.handlerFailed .onboardAsset) ∧
      (changed.route collaborators event shared).2.diagnostics.log =
        [.onboarding event (.scopeUnavailable "later"),
          .handlerFailed event .onboardAsset "handler panicked: out of range"] :=
  ⟨Router.route_gated rfl collaborators event shared fun _ _ h => admits_flawed h ▸ flawed_returns _,
    by decide, rfl⟩

end Sample

end Attestor.Routing
