import Attestor.Chain.Ledger
import Attestor.Proofs.Causes
import Attestor.Proofs.Conduct

/-!
Routing with the default handlers. Whatever the collaborators answer, and where they panic, routing an event comes to
an end and publishes one diagnostic, about this event; it queues one verification if that is due, and nothing
otherwise; and no collaborator is asked before the event has passed what comes before the question
(`route_settles`). `Due` says when a verification is due, in terms of the event and of the collaborators alone.
-/

namespace Attestor.Routing

open Contract (Event EventKind ScopeRecord Verification)
open Handler (Activity Effect Ending Performed Registry)
open Handler.Activity (Course)

variable {χ σ ρ π : Type}

/-! ### The effects of routing -/

/-- What is published of the end of an activity. -/
def reports (e : Event) (kind : EventKind) (ending : Ending) : List Diagnostic :=
  (complaint ending).toList.map (.handlerFailed e kind)

/-- The effects of routing an event to its end, in order. -/
def Router.effects (r : Router) (c : Collaborators χ σ ρ π) (e : Event) (s : Shared χ σ π) : List Effect :=
  match r.direct e with
  | .ignore _ reason => [.publish (.ignored e reason)]
  | .handle kind handler =>
    match r.call e handler with
    | .error _ => []
    | .ok a => a.effects c s ++ ((a.run c s).1.toList.flatMap (reports e kind)).map .publish

theorem report_performed (c : Collaborators χ σ ρ π) (e : Event) (kind : EventKind) (ending : Ending)
    (s : Shared χ σ π) : Performed c s ((reports e kind ending).map .publish) (report e kind ending s) := by
  unfold reports report
  cases complaint ending with
  | none => exact .nil
  | some error => exact .cons rfl .nil

/-- Publishing tells what is published, and queues nothing. -/
theorem told_publish (ds : List Diagnostic) : (ds.map Effect.publish).flatMap Effect.told = ds := by
  rw [List.flatMap_map]
  exact List.flatMap_singleton' ds

theorem queued_publish (ds : List Diagnostic) : (ds.map Effect.publish).flatMap Effect.queued = [] := by
  rw [List.flatMap_map]
  exact List.flatMap_eq_nil_iff.mpr fun _ _ => rfl

/-- An event that a filter drops. -/
theorem Router.route_ignored {r : Router} {e : Event} {outcome : Outcome} {reason : Ignored}
    (h : r.direct e = .ignore outcome reason) (c : Collaborators χ σ ρ π) (s : Shared χ σ π) :
    r.effects c e s = [.publish (.ignored e reason)] ∧
      r.route c e s = (.settled outcome, s.publish (.ignored e reason)) := by
  simp only [effects, route, h, and_self]

/-- An event whose handler comes to its end. -/
theorem Router.route_handled {r : Router} {e : Event} {kind : EventKind} {handler : Handler} {a : Activity}
    (h : r.direct e = .handle kind handler) (hcall : r.call e handler = .ok a) (c : Collaborators χ σ ρ π)
    {s s' : Shared χ σ π} {ending : Ending} (hrun : a.run c s = (some ending, s')) :
    r.effects c e s = a.effects c s ++ (reports e kind ending).map .publish ∧
      r.route c e s = (.settled (outcome kind ending), report e kind ending s') := by
  simp only [effects, route, h, hcall, hrun, Option.toList_some, List.flatMap_singleton, and_self]

/-- Routing performs its effects. -/
theorem Router.route_performed (r : Router) (c : Collaborators χ σ ρ π) (e : Event) (s : Shared χ σ π) :
    Performed c s (r.effects c e s) (r.route c e s).2 := by
  cases hdirect : r.direct e with
  | ignore outcome reason =>
    obtain ⟨heffects, hroute⟩ := route_ignored hdirect c s
    rw [heffects, hroute]
    exact .cons rfl .nil
  | handle kind handler =>
    cases hcall : r.call e handler with
    | error p =>
      simp only [effects, route, hdirect, hcall]
      exact .nil
    | ok a =>
      have hperformed := (Activity.run_effects c a s).1
      rcases hrun : a.run c s with ⟨_ | ending, s'⟩ <;> rw [hrun] at hperformed
      · simp only [effects, route, hdirect, hcall, hrun]
        exact hperformed.append .nil
      · obtain ⟨heffects, hroute⟩ := route_handled hdirect hcall c hrun
        rw [heffects, hroute]
        exact hperformed.append (report_performed c e kind ending s')

/-! ### What comes of the default handlers -/

/-- The diagnostics that came of handling an event are one, and it tells of a queued decision exactly when there is
one. -/
structure Conclusion (e : Event) (queued : List Verification) (told : List Diagnostic) (d : Diagnostic) : Prop where
  told : told = [d]
  concerns : d.Concerns e
  queued : ∀ decision, d = .onboarding e (.queued decision) ↔ queued.map (·.decision) = [decision]

/-- An activity that keeps to the rules of the default handlers and comes to its end has led to one diagnostic, what
is reported of the end included. -/
theorem keepsTo_concludes {kind : EventKind} {call : Handler.Call} {a b : Activity}
    (hkeeps : a.KeepsTo (call.conduct kind) []) {xs : List Effect} (hcourse : Course a xs b) {ending : Ending}
    (hend : b.ending? = some ending) :
    ∃ d, Conclusion call.event (xs.flatMap Effect.queued)
      (xs.flatMap Effect.told ++ reports call.event kind ending) d := by
  obtain ⟨hfits, hb⟩ := hkeeps.course .nil hcourse
  rw [List.nil_append] at hfits hb
  have hended := hb.ended hend
  cases ending with
  | done =>
    obtain ⟨ys, d, rfl⟩ := hended
    obtain ⟨hconcerns, hfirst, hqueued⟩ := hfits ys _ [] rfl
    refine ⟨d, ?_, hconcerns, fun decision => ?_⟩
    · rw [List.flatMap_append, hfirst]
      rfl
    · rw [List.flatMap_append]
      exact (List.append_nil _).symm ▸ hqueued decision
  | failed error => exact absurd hended id
  | panicked p =>
    obtain ⟨htold, hqueued⟩ := hended
    refine ⟨.handlerFailed call.event kind _, by rw [htold]; rfl, rfl, fun decision => ?_⟩
    rw [hqueued]
    exact ⟨nofun, nofun⟩

/-- The default handlers do not panic when they are called. -/
theorem default_call {kind : EventKind} {handler : Handler} (hget : Registry.default.get? kind = some handler)
    (call : Handler.Call) : ∃ a, handler call = .ok a := by
  obtain ⟨-, rfl⟩ | ⟨-, rfl⟩ := Registry.of_default hget
  · exact ⟨_, rfl⟩
  · exact ⟨_, rfl⟩

/-- An event goes to a default handler, whose activity comes to its end. -/
structure Router.Handles (r : Router) (c : Collaborators χ σ ρ π) (e : Event) (s : Shared χ σ π) (kind : EventKind)
    (a : Activity) (ending : Ending) : Prop where
  ofKind : e.kind = some kind
  contract : e.contractAddress = some r.contract
  registered : r.registry.contains kind = true
  keeps : a.KeepsTo (Handler.Call.conduct ⟨e, r.contract, r.signer⟩ kind) []
  course : ∃ b, Course a (a.effects c s) b ∧ b.ending? = some ending
  effects : r.effects c e s = a.effects c s ++ (reports e kind ending).map .publish
  route : r.route c e s = (.settled (outcome kind ending), report e kind ending (a.run c s).2)

theorem Router.default_handles {r : Router} (hr : r.registry = .default) {e : Event} {kind : EventKind}
    {handler : Handler} (hdirect : r.direct e = .handle kind handler) (c : Collaborators χ σ ρ π)
    (s : Shared χ σ π) : ∃ a ending, r.Handles c e s kind a ending := by
  obtain ⟨hkind, hcontract, hget⟩ := Router.of_direct hdirect
  have hregistered : r.registry.contains kind = true := by rw [Registry.contains, hget, Option.isSome_some]
  rw [hr] at hget
  obtain ⟨a, hcall⟩ := default_call hget ⟨e, r.contract, r.signer⟩
  have hkeeps := Handler.default_keepsTo hget hcall
  obtain ⟨ending, b, hrun, hcourse, hend⟩ := hkeeps.run c s
  obtain ⟨heffects, hroute⟩ := route_handled hdirect hcall c (Prod.ext hrun rfl : a.run c s = (some ending, _))
  exact ⟨a, ending, hkind, hcontract, hregistered, hkeeps, ⟨b, hcourse, hend⟩, heffects, hroute⟩

/-- Routing with the default handlers comes to an end, and to one diagnostic. -/
theorem Router.route_concludes {r : Router} (hr : r.registry = .default) (c : Collaborators χ σ ρ π) (e : Event)
    (s : Shared χ σ π) :
    (∃ outcome, (r.route c e s).1 = .settled outcome) ∧
      ∃ d, Conclusion e ((r.effects c e s).flatMap Effect.queued) ((r.effects c e s).flatMap Effect.told) d := by
  cases hdirect : r.direct e with
  | ignore outcome reason =>
    obtain ⟨heffects, hroute⟩ := route_ignored hdirect c s
    rw [heffects, hroute]
    exact ⟨⟨outcome, rfl⟩, _, rfl, rfl, fun decision => ⟨nofun, nofun⟩⟩
  | handle kind handler =>
    obtain ⟨a, ending, hhandles⟩ := default_handles hr hdirect c s
    obtain ⟨b, hcourse, hend⟩ := hhandles.course
    obtain ⟨d, hconclusion⟩ := keepsTo_concludes hhandles.keeps hcourse hend
    rw [hhandles.effects, hhandles.route, List.flatMap_append, List.flatMap_append, told_publish, queued_publish,
      List.append_nil]
    exact ⟨⟨_, rfl⟩, d, hconclusion⟩

/-! ### When a verification is due -/

/-- What is asked about an event, and when: about its scope only if the event has passed the filters, names this
verifier and the scope, and for an onboarding an asset type; about the asset only if the event is an onboarding whose
scope was found pending; and for a decision only if the asset was retrieved. -/
def Router.Asks (r : Router) (e : Event) (before : List Effect) : Effect → Prop
  | .scopeRecord contract scope _ => before = [] ∧ contract = r.contract ∧
      (∃ kind, e.kind = some kind ∧ e.contractAddress = some contract ∧ r.registry.contains kind = true ∧
        (kind = .onboardAsset → ∃ type, e.assetType = some type)) ∧
      e.verifierAddress = some r.signer.address ∧ e.scopeAddress = some scope
  | .retrieve record _ => e.kind = some .onboardAsset ∧ record.status = .pending ∧
      ∃ scope, before = [.scopeRecord r.contract scope (.value (.ok record))]
  | .verify record asset _ => ∃ scope, before = [.scopeRecord r.contract scope (.value (.ok record)),
      .retrieve record (.value (.ok asset))]
  | _ => True

/-- A verification that is due for an event, by what the event says and what the collaborators answer. -/
structure Due (r : Router) (c : Collaborators χ σ ρ π) (e : Event) (s : Shared χ σ π) (v : Verification) : Prop where
  kind : e.kind = some .onboardAsset
  contract : e.contractAddress = some r.contract
  verifier : e.verifierAddress = some r.signer.address
  type : ∃ type, e.assetType = some type
  found : ∃ scope chain, e.scopeAddress = some scope ∧
    c.chain.scopeRecord r.contract scope s.chain = (.value (.ok v.scope), chain)
  pending : v.scope.status = .pending
  decided : ∃ asset assets assets', c.assets.retrieve v.scope s.assets = (.value (.ok asset), assets) ∧
    c.assets.verify v.scope asset assets = (.value (.ok v.decision), assets')
  event : v.event = e

/-- A verification that is due is queued. -/
theorem Due.queued {r : Router} {c : Collaborators χ σ ρ π} {e : Event} {s : Shared χ σ π} {v : Verification}
    (h : Due r c e s v) (hr : r.registry = .default) : (r.effects c e s).flatMap Effect.queued = [v] := by
  obtain ⟨hkind, hcontract, hverifier, ⟨type, htype⟩, ⟨scope, chain, hscope, hfound⟩, hpending,
    ⟨asset, assets, assets', hretrieve, hverify⟩, rfl⟩ := h
  have hdirect : r.direct v.event = .handle .onboardAsset Handler.onboard := by
    simp [Router.direct, hkind, hcontract, hr, Registry.default]
  have hactivity : Handler.onboarding ⟨v.event, r.contract, r.signer⟩ =
      Handler.inspect ⟨v.event, r.contract, r.signer⟩ scope := by
    simp [Handler.onboarding, Handler.Call.ifAddressed, hverifier, Signing.Signer.isAddressedBy, hscope, htype]
  have hcall : r.call v.event Handler.onboard = .ok (Handler.inspect ⟨v.event, r.contract, r.signer⟩ scope) :=
    congrArg Except.ok hactivity
  simp [Router.effects, hdirect, hcall, Handler.inspect, Handler.decide, Handler.conclude, Activity.effects,
    Activity.run, hfound, hpending, hretrieve, hverify, reports, complaint, Effect.queued]

/-- What a default handler asks is asked as it should be; so is what routing asks. -/
theorem Router.effects_fitting {r : Router} (hr : r.registry = .default) (c : Collaborators χ σ ρ π) (e : Event)
    (s : Shared χ σ π) : Fitting (r.Asks e) (r.effects c e s) := by
  cases hdirect : r.direct e with
  | ignore outcome reason =>
    rw [(route_ignored hdirect c s).1]
    exact Fitting.nil.snoc trivial
  | handle kind handler =>
    obtain ⟨a, ending, hhandles⟩ := default_handles hr hdirect c s
    obtain ⟨b, hcourse, -⟩ := hhandles.course
    have hfits := (hhandles.keeps.course .nil hcourse).1
    rw [hhandles.effects]
    have hasks : Fitting (r.Asks e) (a.effects c s) := hfits.mono fun before x hx => by
      cases x with
      | scopeRecord contract scope answer =>
        obtain ⟨hfirst, hcontract, hverifier, hscope, htype⟩ := hx
        refine ⟨hfirst, hcontract, ⟨kind, hhandles.ofKind, ?_, hhandles.registered, htype⟩, hverifier, hscope⟩
        rw [hcontract]
        exact hhandles.contract
      | retrieve record answer => exact ⟨hx.1 ▸ hhandles.ofKind, hx.2⟩
      | verify record asset answer => exact hx
      | publish d => trivial
      | enqueue v => trivial
    unfold reports
    cases complaint ending with
    | none => exact (List.append_nil _).symm ▸ hasks
    | some error => exact hasks.snoc trivial

/-- What is queued was due. -/
theorem Router.due_of_queued {r : Router} (hr : r.registry = .default) {c : Collaborators χ σ ρ π} {e : Event}
    {s : Shared χ σ π} {v : Verification} (h : .enqueue v ∈ r.effects c e s) : Due r c e s v := by
  cases hdirect : r.direct e with
  | ignore outcome reason =>
    rw [(route_ignored hdirect c s).1] at h
    cases List.mem_singleton.mp h
  | handle kind handler =>
    obtain ⟨a, ending, hhandles⟩ := default_handles hr hdirect c s
    obtain ⟨b, hcourse, -⟩ := hhandles.course
    have hfits := (hhandles.keeps.course .nil hcourse).1
    have hperformed := (Activity.run_effects c a s).1
    rw [hhandles.effects] at h
    obtain ⟨pre, post, heffects⟩ := List.append_of_mem ((List.mem_append.mp h).resolve_right fun hreport => by
      obtain ⟨d, -, hd⟩ := List.mem_map.mp hreport
      cases hd)
    rw [List.nil_append, heffects] at hfits
    -- the three questions before it were asked as they should be, and these are their answers
    obtain ⟨hevent, scope, asset, rfl⟩ := hfits pre _ post rfl
    obtain ⟨-, hadmits⟩ := hfits [] _ _ rfl
    obtain ⟨rfl, hpending, -⟩ := hfits [_] _ _ rfl
    rw [heffects] at hperformed
    obtain _ | ⟨⟨chain, hfound, rfl⟩, _ | ⟨⟨assets, hretrieve, rfl⟩, _ | ⟨⟨assets', hverify, rfl⟩, -⟩⟩⟩ := hperformed
    exact ⟨hhandles.ofKind, hhandles.contract, hadmits.verifier, hadmits.type rfl,
      ⟨scope, chain, hadmits.scope, hfound⟩, hpending, ⟨asset, assets, assets', hretrieve, hverify⟩, hevent⟩

/-- What came of routing an event. -/
structure Settles (r : Router) (c : Collaborators χ σ ρ π) (e : Event) (s : Shared χ σ π) : Prop where
  settled : ∃ outcome, (r.route c e s).1 = .settled outcome
  /-- The state afterwards is what the effects have made of it. -/
  performed : Performed c s (r.effects c e s) (r.route c e s).2
  asked : Fitting (r.Asks e) (r.effects c e s)
  /-- One diagnostic was published, about the event; and the verification that is due was queued, if one is. -/
  told : ∃ d, (r.route c e s).2.diagnostics.log = s.diagnostics.log ++ [d] ∧ d.event = some e ∧
    ((∃ v, Due r c e s v ∧ (r.route c e s).2.outbound.log = s.outbound.log ++ [v] ∧
        d = .onboarding e (.queued v.decision)) ∨
      (¬ ∃ v, Due r c e s v) ∧ (r.route c e s).2.outbound.log = s.outbound.log ∧
        ∀ decision, d ≠ .onboarding e (.queued decision))

/-- **Routing an event publishes one diagnostic, about this event, and queues a verification exactly when one is
due**, with the default handlers, whatever the chain client and the asset verifier answer and wherever they panic; and
they are asked only what the event, and the answers before, give reason to ask. -/
theorem Router.route_settles {r : Router} (hr : r.registry = .default) (c : Collaborators χ σ ρ π) (e : Event)
    (s : Shared χ σ π) : Settles r c e s := by
  obtain ⟨hsettled, d, htold, hconcerns, hqueued⟩ := route_concludes hr c e s
  have hperformed := r.route_performed c e s
  have hdiagnostics := hperformed.diagnostics
  have houtbound := hperformed.outbound
  rw [htold] at hdiagnostics
  refine ⟨hsettled, hperformed, effects_fitting hr c e s, d, hdiagnostics, hconcerns.event, ?_⟩
  by_cases hdue : ∃ v, Due r c e s v
  · obtain ⟨v, hv⟩ := hdue
    rw [hv.queued hr] at houtbound hqueued
    exact .inl ⟨v, hv, houtbound, (hqueued v.decision).mpr rfl⟩
  · have hnone : (r.effects c e s).flatMap Effect.queued = [] := by
      refine List.flatMap_eq_nil_iff.mpr fun x hx => ?_
      cases x with
      | enqueue v => exact absurd ⟨v, due_of_queued hr hx⟩ hdue
      | _ => rfl
    rw [hnone] at houtbound hqueued
    rw [List.append_nil] at houtbound
    exact .inr ⟨hdue, houtbound, fun decision hd => absurd ((hqueued decision).mp hd) nofun⟩

namespace Sample

/-- An onboarding event for this verifier. -/
def event : Event :=
  ⟨7, "hash", .plain, .ofList
    [(Contract.Key.contractAddress.text, "contract"), (Contract.Key.eventType.text, "onboard_asset"),
      (Contract.Key.assetType.text, "loan"), (Contract.Key.scopeAddress.text, "scope"),
      (Contract.Key.verifierAddress.text, "verifier")]⟩

def router : Router := ⟨"contract", .fixed "verifier" [] (.ok []), .default⟩

def collaborators : Collaborators Chain.Ledger Stream.Script Stream.Feed Asset.Fixed :=
  ⟨Chain.Ledger.client, Stream.Script.source, Asset.Fixed.verifier⟩

/-- The scope of the event is pending, and its asset passes. -/
def shared : Shared Chain.Ledger Stream.Script Asset.Fixed :=
  .initial
    (Chain.Ledger.empty.putScope "contract" ⟨"uuid", "scope", "loan", "requestor", "verifier", .pending, none⟩)
    .empty .approving

/-- A verification is due for the sample event. -/
theorem event_settles :
    router.registry = .default ∧ Settles router collaborators event shared ∧
      (router.route collaborators event shared).2.outbound.log.length = 1 :=
  ⟨rfl, Router.route_settles rfl collaborators event shared, by decide +kernel⟩

end Sample

end Attestor.Routing
