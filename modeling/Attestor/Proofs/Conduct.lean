import Attestor.Proofs.Effects
import Attestor.Proofs.Logs

/-!
Conduct of activities. A conduct is a pair of rules: which effects are allowed after those before them, and how an
activity may end after all of them. An activity that keeps to a conduct does so whatever answers it gets, and
whatever others do between its steps (`KeepsTo.course`); and running it comes to an end (`KeepsTo.run`).

The default handlers keep to one (`default_keepsTo`): they ask about a scope, then about its asset, then for a
decision, each question only after the one before it got the answer that calls for it; a decision is queued right
after it was made; and one diagnostic about the event comes last, which says that a decision was queued exactly when
one was.
-/

namespace Attestor

open Contract (Event EventKind ScopeRecord Decision Verification)

/-- The diagnostic tells what came of handling the event. -/
def Diagnostic.Concerns (e : Event) : Diagnostic → Prop
  | .ignored event _ => event = e
  | .handlerFailed event _ _ => event = e
  | .onboarding event _ => event = e
  | .confirmation event _ => event = e
  | _ => False

theorem Diagnostic.Concerns.event {e : Event} {d : Diagnostic} (h : d.Concerns e) : d.event = some e := by
  cases d with
  | ignored _ _ => exact congrArg some h
  | handlerFailed _ _ _ => exact congrArg some h
  | onboarding _ _ => exact congrArg some h
  | confirmation _ _ => exact congrArg some h
  | _ => exact absurd h id

namespace Handler

variable {χ σ ρ π : Type}

/-! ### What effects publish -/

namespace Effect

/-- The diagnostics that an effect publishes. -/
def told : Effect → List Diagnostic
  | .publish d => [d]
  | _ => []

theorem Turns.diagnostics {c : Collaborators χ σ ρ π} {s s' : Shared χ σ π} {x : Effect} (h : x.Turns c s s') :
    s'.diagnostics.log = s.diagnostics.log ++ x.told := by
  cases x with
  | publish d =>
    rw [show s' = s.publish d from h]
    rfl
  | enqueue v =>
    rw [show s' = s.enqueue v from h]
    exact (List.append_nil _).symm
  | scopeRecord contract scope answer =>
    obtain ⟨chain, -, rfl⟩ := h
    exact (List.append_nil _).symm
  | retrieve scope answer =>
    obtain ⟨assets, -, rfl⟩ := h
    exact (List.append_nil _).symm
  | verify scope asset answer =>
    obtain ⟨assets, -, rfl⟩ := h
    exact (List.append_nil _).symm

end Effect

/-- Effects that come one after the other turn one state into another. -/
inductive Performed (c : Collaborators χ σ ρ π) : Shared χ σ π → List Effect → Shared χ σ π → Prop where
  | nil {s} : Performed c s [] s
  | cons {s x s' xs s''} (h : x.Turns c s s') (hrest : Performed c s' xs s'') : Performed c s (x :: xs) s''

namespace Performed

variable {c : Collaborators χ σ ρ π} {s s' s'' : Shared χ σ π} {xs ys : List Effect}

theorem append (h : Performed c s xs s') (h' : Performed c s' ys s'') : Performed c s (xs ++ ys) s'' := by
  induction h with
  | nil => exact h'
  | cons hx _ ih => exact .cons hx (ih h')

/-- What is published meanwhile is what the effects publish. -/
theorem diagnostics (h : Performed c s xs s') :
    s'.diagnostics.log = s.diagnostics.log ++ xs.flatMap Effect.told := by
  induction h with
  | nil => exact (List.append_nil _).symm
  | cons hx _ ih => rw [ih, hx.diagnostics, List.flatMap_cons, List.append_assoc]

/-- What is queued meanwhile is what the effects queue. -/
theorem outbound (h : Performed c s xs s') : s'.outbound.log = s.outbound.log ++ xs.flatMap Effect.queued := by
  induction h with
  | nil => exact (List.append_nil _).symm
  | cons hx _ ih => rw [ih, hx.log, List.flatMap_cons, List.append_assoc]

end Performed

/-! ### Rules -/

/-- Rules for the effects of an activity, given those before them, and for its end, given all of them. -/
structure Conduct where
  effect : List Effect → Effect → Prop
  ending : List Effect → Ending → Prop

namespace Activity

/-- After the effects `xs` the activity keeps to the rules and does not hang, whatever answers it gets. -/
def KeepsTo (r : Conduct) : Activity → List Effect → Prop
  | .done, xs => r.ending xs .done
  | .fail error, xs => r.ending xs (.failed error)
  | .panic p, xs => r.ending xs (.panicked p)
  | .hang, _ => False
  | .publish d rest, xs => r.effect xs (.publish d) ∧ rest.KeepsTo r (xs ++ [.publish d])
  | .enqueue v rest, xs => r.effect xs (.enqueue v) ∧ rest.KeepsTo r (xs ++ [.enqueue v])
  | .scopeRecord contract scope rest, xs =>
    (∀ answer, r.effect xs (.scopeRecord contract scope answer)) ∧
      (∀ p, r.ending (xs ++ [.scopeRecord contract scope (.panic p)]) (.panicked p)) ∧
      ∀ a, (rest a).KeepsTo r (xs ++ [.scopeRecord contract scope (.value a)])
  | .retrieve scope rest, xs =>
    (∀ answer, r.effect xs (.retrieve scope answer)) ∧
      (∀ p, r.ending (xs ++ [.retrieve scope (.panic p)]) (.panicked p)) ∧
      ∀ a, (rest a).KeepsTo r (xs ++ [.retrieve scope (.value a)])
  | .verify scope asset rest, xs =>
    (∀ answer, r.effect xs (.verify scope asset answer)) ∧
      (∀ p, r.ending (xs ++ [.verify scope asset (.panic p)]) (.panicked p)) ∧
      ∀ a, (rest a).KeepsTo r (xs ++ [.verify scope asset (.value a)])

variable {r : Conduct} {a b : Activity} {xs ys : List Effect}

/-- An effect is allowed, and the activity keeps to the rules after it. -/
theorem KeepsTo.after (h : a.KeepsTo r xs) {x : Effect} (hx : After a x b) :
    r.effect xs x ∧ b.KeepsTo r (xs ++ [x]) := by
  cases hx with
  | publish => exact h
  | enqueue => exact h
  | @scopeRecord _ _ _ answer =>
    refine ⟨h.1 answer, ?_⟩
    cases answer with
    | value a => exact h.2.2 a
    | panic p => exact h.2.1 p
  | @retrieve _ _ answer =>
    refine ⟨h.1 answer, ?_⟩
    cases answer with
    | value a => exact h.2.2 a
    | panic p => exact h.2.1 p
  | @verify _ _ _ answer =>
    refine ⟨h.1 answer, ?_⟩
    cases answer with
    | value a => exact h.2.2 a
    | panic p => exact h.2.1 p

/-- In any course of the activity every effect is allowed after those before it. -/
theorem KeepsTo.course (h : a.KeepsTo r xs) (hfits : Fitting r.effect xs) (hc : Course a ys b) :
    Fitting r.effect (xs ++ ys) ∧ b.KeepsTo r (xs ++ ys) := by
  induction hc generalizing xs with
  | nil => exact ⟨by rwa [List.append_nil], by rwa [List.append_nil]⟩
  | @cons a x b ys _ hx _ ih =>
    obtain ⟨hallowed, hb⟩ := h.after hx
    have hrest := ih hb (hfits.snoc hallowed)
    rwa [List.append_assoc] at hrest

/-- The end is allowed after all effects. -/
theorem KeepsTo.ended (h : a.KeepsTo r xs) {ending : Ending} (he : a.ending? = some ending) : r.ending xs ending := by
  cases a with
  | done => cases he; exact h
  | fail error => cases he; exact h
  | panic p => cases he; exact h
  | _ => cases he

end Activity

/-! ### Running to the end -/

namespace Activity

/-- The effects that the activity has when it is run, in order. -/
def effects (c : Collaborators χ σ ρ π) : Activity → Shared χ σ π → List Effect
  | .publish d rest, s => .publish d :: rest.effects c (s.publish d)
  | .enqueue v rest, s => .enqueue v :: rest.effects c (s.enqueue v)
  | .scopeRecord contract scope rest, s =>
    match c.chain.scopeRecord contract scope s.chain with
    | (.value a, chain) => .scopeRecord contract scope (.value a) :: (rest a).effects c { s with chain }
    | (.panic p, _) => [.scopeRecord contract scope (.panic p)]
  | .retrieve scope rest, s =>
    match c.assets.retrieve scope s.assets with
    | (.value a, assets) => .retrieve scope (.value a) :: (rest a).effects c { s with assets }
    | (.panic p, _) => [.retrieve scope (.panic p)]
  | .verify scope asset rest, s =>
    match c.assets.verify scope asset s.assets with
    | (.value a, assets) => .verify scope asset (.value a) :: (rest a).effects c { s with assets }
    | (.panic p, _) => [.verify scope asset (.panic p)]
  | _, _ => []

/-- Running an activity performs its effects, which are a course to its end. -/
theorem run_effects (c : Collaborators χ σ ρ π) (a : Activity) (s : Shared χ σ π) :
    Performed c s (a.effects c s) (a.run c s).2 ∧
      ∃ b, Course a (a.effects c s) b ∧ b.ending? = (a.run c s).1 ∧ (b.ending? = none → b = .hang) := by
  induction a generalizing s with
  | done => exact ⟨.nil, _, .nil, rfl, nofun⟩
  | fail error => exact ⟨.nil, _, .nil, rfl, nofun⟩
  | panic p => exact ⟨.nil, _, .nil, rfl, nofun⟩
  | hang => exact ⟨.nil, _, .nil, rfl, fun _ => rfl⟩
  | publish d rest ih =>
    obtain ⟨hperformed, b, hcourse, hend⟩ := ih (s.publish d)
    exact ⟨.cons rfl hperformed, b, .cons .publish hcourse, hend⟩
  | enqueue v rest ih =>
    obtain ⟨hperformed, b, hcourse, hend⟩ := ih (s.enqueue v)
    exact ⟨.cons rfl hperformed, b, .cons .enqueue hcourse, hend⟩
  | scopeRecord contract scope rest ih =>
    rcases hask : c.chain.scopeRecord contract scope s.chain with ⟨a | p, chain⟩
    · obtain ⟨hperformed, b, hcourse, hend⟩ := ih a { s with chain }
      simp only [effects, run, hask]
      exact ⟨.cons ⟨chain, hask, rfl⟩ hperformed, b,
        .cons (@After.scopeRecord contract scope rest (.value a)) hcourse, hend⟩
    · simp only [effects, run, hask]
      exact ⟨.cons ⟨chain, hask, rfl⟩ .nil, .panic p,
        .cons (@After.scopeRecord contract scope rest (.panic p)) .nil, rfl, nofun⟩
  | retrieve scope rest ih =>
    rcases hask : c.assets.retrieve scope s.assets with ⟨a | p, assets⟩
    · obtain ⟨hperformed, b, hcourse, hend⟩ := ih a { s with assets }
      simp only [effects, run, hask]
      exact ⟨.cons ⟨assets, hask, rfl⟩ hperformed, b, .cons (@After.retrieve scope rest (.value a)) hcourse, hend⟩
    · simp only [effects, run, hask]
      exact ⟨.cons ⟨assets, hask, rfl⟩ .nil, .panic p, .cons (@After.retrieve scope rest (.panic p)) .nil, rfl, nofun⟩
  | verify scope asset rest ih =>
    rcases hask : c.assets.verify scope asset s.assets with ⟨a | p, assets⟩
    · obtain ⟨hperformed, b, hcourse, hend⟩ := ih a { s with assets }
      simp only [effects, run, hask]
      exact ⟨.cons ⟨assets, hask, rfl⟩ hperformed, b, .cons (@After.verify scope asset rest (.value a)) hcourse, hend⟩
    · simp only [effects, run, hask]
      exact ⟨.cons ⟨assets, hask, rfl⟩ .nil, .panic p,
        .cons (@After.verify scope asset rest (.panic p)) .nil, rfl, nofun⟩

/-- An activity that keeps to a conduct comes to an end, and all it does is allowed. -/
theorem KeepsTo.run {r : Conduct} {a : Activity} (h : a.KeepsTo r []) (c : Collaborators χ σ ρ π) (s : Shared χ σ π) :
    ∃ ending b, (a.run c s).1 = some ending ∧ Course a (a.effects c s) b ∧ b.ending? = some ending := by
  obtain ⟨-, b, hcourse, hend, hhang⟩ := run_effects c a s
  have hb := (h.course .nil hcourse).2
  cases hending : b.ending? with
  | none =>
    rw [hhang hending] at hb
    exact absurd hb id
  | some ending => exact ⟨ending, b, by rw [← hend, hending], hcourse, hending⟩

end Activity

/-! ### The conduct of the default handlers -/

/-- The event is one whose scope may be looked up: it names this verifier and the scope, and for an onboarding also
an asset type. -/
structure Call.Admits (call : Call) (kind : EventKind) (contract scope : String) : Prop where
  contract : contract = call.contract
  verifier : call.event.verifierAddress = some call.signer.address
  scope : call.event.scopeAddress = some scope
  type : kind = .onboardAsset → ∃ type, call.event.assetType = some type

/-- The rules that the handler of a kind keeps to. -/
def Call.conduct (call : Call) (kind : EventKind) : Conduct where
  effect xs
    | .scopeRecord contract scope _ => xs = [] ∧ call.Admits kind contract scope
    | .retrieve record _ => kind = .onboardAsset ∧ record.status = .pending ∧
        ∃ scope, xs = [.scopeRecord call.contract scope (.value (.ok record))]
    | .verify record asset _ => ∃ scope, xs = [.scopeRecord call.contract scope (.value (.ok record)),
        .retrieve record (.value (.ok asset))]
    | .enqueue v => v.event = call.event ∧ ∃ scope asset,
        xs = [.scopeRecord call.contract scope (.value (.ok v.scope)), .retrieve v.scope (.value (.ok asset)),
          .verify v.scope asset (.value (.ok v.decision))]
    | .publish d => d.Concerns call.event ∧ xs.flatMap Effect.told = [] ∧
        ∀ decision, d = .onboarding call.event (.queued decision) ↔
          (xs.flatMap Effect.queued).map (·.decision) = [decision]
  ending xs
    | .done => ∃ ys d, xs = ys ++ [.publish d]
    | .failed _ => False
    | .panicked _ => xs.flatMap Effect.told = [] ∧ xs.flatMap Effect.queued = []

section

open Activity (KeepsTo Course)

variable {call : Call} {kind : EventKind} {xs : List Effect}

/-- A diagnostic that says of nothing that it was queued comes last, and nothing was told or queued before. -/
theorem publish_keepsTo {d : Diagnostic} (hd : d.Concerns call.event)
    (hqueued : ∀ decision, d ≠ .onboarding call.event (.queued decision)) (htold : xs.flatMap Effect.told = [])
    (hnone : xs.flatMap Effect.queued = []) : (Activity.publish d .done).KeepsTo (call.conduct kind) xs := by
  refine ⟨⟨hd, htold, fun decision => ?_⟩, xs, d, rfl⟩
  rw [hnone]
  exact ⟨fun h => absurd h (hqueued decision), nofun⟩

/-- An event may be dropped without a question. -/
theorem ignored_keepsTo (reason : Ignored) :
    (Activity.publish (.ignored call.event reason) .done).KeepsTo (call.conduct kind) [] :=
  publish_keepsTo rfl nofun rfl rfl

/-- Whether the event is meant for this verifier is settled first. -/
theorem ifAddressed_keepsTo {k : EventKind} {rest : Bool → Activity} (hfalse : rest false = .done)
    (htrue : call.event.verifierAddress = some call.signer.address → (rest true).KeepsTo (call.conduct kind) []) :
    (call.ifAddressed k rest).KeepsTo (call.conduct kind) [] := by
  unfold Call.ifAddressed
  rw [hfalse]
  split
  · exact ignored_keepsTo _
  next address haddress =>
    split
    next hsigner =>
      refine htrue ?_
      rw [haddress, show call.signer.address = address by simpa [Signing.Signer.isAddressedBy] using hsigner]
    next => exact ignored_keepsTo _

theorem confirming_keepsTo (call : Call) : (confirming call).KeepsTo (call.conduct .verifyAsset) [] := by
  refine ifAddressed_keepsTo rfl fun hverifier => ?_
  dsimp only
  split
  · exact ignored_keepsTo _
  next scope hscope =>
    refine ⟨fun answer => ⟨rfl, rfl, hverifier, hscope, nofun⟩, fun p => ⟨rfl, rfl⟩, fun found => ?_⟩
    cases found <;> exact publish_keepsTo rfl nofun rfl rfl

theorem conclude_keepsTo {result : Onboarding} (hqueued : ∀ decision, result ≠ .queued decision)
    (htold : xs.flatMap Effect.told = []) (hnone : xs.flatMap Effect.queued = []) :
    (conclude call.event result).KeepsTo (call.conduct kind) xs :=
  publish_keepsTo rfl (fun decision h => hqueued decision (Diagnostic.onboarding.inj h).2) htold hnone

/-- After a scope was found pending. -/
theorem decide_keepsTo {scope : String} {record : ScopeRecord} (hpending : record.status = .pending) :
    (decide call.event record).KeepsTo (call.conduct .onboardAsset)
      [.scopeRecord call.contract scope (.value (.ok record))] := by
  refine ⟨fun _ => ⟨rfl, hpending, scope, rfl⟩, fun _ => ⟨rfl, rfl⟩, fun retrieved => ?_⟩
  cases retrieved with
  | error fault => exact conclude_keepsTo nofun rfl rfl
  | ok asset =>
    refine ⟨fun _ => ⟨scope, rfl⟩, fun _ => ⟨rfl, rfl⟩, fun verified => ?_⟩
    cases verified with
    | error fault => exact conclude_keepsTo nofun rfl rfl
    | ok decision =>
      refine ⟨⟨rfl, scope, asset, rfl⟩, ⟨rfl, rfl, fun other => ?_⟩, _, _, rfl⟩
      exact ⟨fun h => by cases h; rfl, fun h => by cases h; rfl⟩

theorem onboarding_keepsTo (call : Call) : (onboarding call).KeepsTo (call.conduct .onboardAsset) [] := by
  refine ifAddressed_keepsTo rfl fun hverifier => ?_
  dsimp only
  split
  · exact ignored_keepsTo _
  · exact ignored_keepsTo _
  next scope type hscope htype =>
    refine ⟨fun answer => ⟨rfl, rfl, hverifier, hscope, fun _ => ⟨type, htype⟩⟩, fun p => ⟨rfl, rfl⟩, fun found => ?_⟩
    cases found with
    | error failure => exact conclude_keepsTo nofun rfl rfl
    | ok record =>
      dsimp only
      split
      next hpending => exact decide_keepsTo hpending
      next => exact conclude_keepsTo nofun rfl rfl

/-- The default handlers keep to the rules of their kinds. -/
theorem default_keepsTo {handler : Handler} {a : Activity} (hget : Registry.default.get? kind = some handler)
    (hcall : handler call = .ok a) : a.KeepsTo (call.conduct kind) [] := by
  obtain ⟨rfl, rfl⟩ | ⟨rfl, rfl⟩ := Registry.of_default hget
  · obtain rfl := Except.ok.inj hcall
    exact confirming_keepsTo call
  · obtain rfl := Except.ok.inj hcall
    exact onboarding_keepsTo call

end

end Handler

end Attestor
