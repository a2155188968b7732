import Attestor.Handler.Confirm

/-!
Effects of activities. An activity that goes on has one effect in each step, and what it does afterwards
depends on the answer alone. So what an activity has come to is told by the effects that it had, in order, and
three facts about such courses settle what the default handlers queue: a verification is queued only after three
answers, about a pending scope, its asset, and the decision (`onboarding_enqueues`), the handler of reported
decisions queues nothing (`confirming_quiet`), and neither queues a second one for its event (`default_once`).
-/

namespace Attestor.Handler

open Contract (ScopeRecord Decision Verification)

/-- An effect of an activity. A question stands here with the answer that it got. -/
inductive Effect where
  | publish (d : Diagnostic)
  | enqueue (v : Verification)
  | scopeRecord (contract scope : String) (answer : Answer (Except Chain.Failure ScopeRecord))
  | retrieve (scope : ScopeRecord) (answer : Answer (Except Fault Asset))
  | verify (scope : ScopeRecord) (asset : Asset) (answer : Answer (Except Fault Decision))

namespace Effect

variable {χ σ ρ π : Type}

/-- The effect turns one state into another, and its answer is the one that the collaborators give. -/
def Turns (c : Collaborators χ σ ρ π) (s s' : Shared χ σ π) : Effect → Prop
  | .publish d => s' = s.publish d
  | .enqueue v => s' = s.enqueue v
  | .scopeRecord contract scope answer =>
    ∃ chain, c.chain.scopeRecord contract scope s.chain = (answer, chain) ∧ s' = { s with chain }
  | .retrieve scope answer =>
    ∃ assets, c.assets.retrieve scope s.assets = (answer, assets) ∧ s' = { s with assets }
  | .verify scope asset answer =>
    ∃ assets, c.assets.verify scope asset s.assets = (answer, assets) ∧ s' = { s with assets }

/-- The verifications that an effect queues. -/
def queued : Effect → List Verification
  | .enqueue v => [v]
  | _ => []

theorem Turns.log {c : Collaborators χ σ ρ π} {s s' : Shared χ σ π} {x : Effect} (h : x.Turns c s s') :
    s'.outbound.log = s.outbound.log ++ x.queued := by
  cases x with
  | publish d =>
    rw [show s' = s.publish d from h, Shared.outbound_publish]
    exact (List.append_nil _).symm
  | enqueue v =>
    rw [show s' = s.enqueue v from h]
    rfl
  | scopeRecord contract scope answer =>
    obtain ⟨chain, -, rfl⟩ := h
    exact (List.append_nil _).symm
  | retrieve scope answer =>
    obtain ⟨assets, -, rfl⟩ := h
    exact (List.append_nil _).symm
  | verify scope asset answer =>
    obtain ⟨assets, -, rfl⟩ := h
    exact (List.append_nil _).symm

end Effect

namespace Activity

variable {χ σ ρ π : Type}

/-- The activity goes on as another one after an effect. -/
inductive After : Activity → Effect → Activity → Prop where
  | publish {d rest} : After (.publish d rest) (.publish d) rest
  | enqueue {v rest} : After (.enqueue v rest) (.enqueue v) rest
  | scopeRecord {contract scope rest answer} :
      After (.scopeRecord contract scope rest) (.scopeRecord contract scope answer)
        (resume rest answer)
  | retrieve {scope rest answer} :
      After (.retrieve scope rest) (.retrieve scope answer) (resume rest answer)
  | verify {scope asset rest answer} :
      After (.verify scope asset rest) (.verify scope asset answer) (resume rest answer)

/-- The activity goes on as another one after effects in this order. -/
inductive Course : Activity → List Effect → Activity → Prop where
  | nil {a} : Course a [] a
  | cons {a x b xs c} : After a x b → Course b xs c → Course a (x :: xs) c

theorem Course.snoc {a b c : Activity} {xs : List Effect} {x : Effect} (h : Course a xs b)
    (hx : After b x c) : Course a (xs ++ [x]) c := by
  induction h with
  | nil => exact .cons hx .nil
  | cons hy _ ih => exact .cons hy (ih hx)

/-- The effect of the step ahead, with the answer that it gets. -/
def effect? (c : Collaborators χ σ ρ π) (s : Shared χ σ π) : Activity → Option Effect
  | .publish d _ => some (.publish d)
  | .enqueue v _ => some (.enqueue v)
  | .scopeRecord contract scope _ =>
    some (.scopeRecord contract scope (c.chain.scopeRecord contract scope s.chain).1)
  | .retrieve scope _ => some (.retrieve scope (c.assets.retrieve scope s.assets).1)
  | .verify scope asset _ => some (.verify scope asset (c.assets.verify scope asset s.assets).1)
  | _ => none

theorem effect?_of_ending {a : Activity} {ending : Ending} (h : a.ending? = some ending)
    (c : Collaborators χ σ ρ π) (s : Shared χ σ π) : a.effect? c s = none := by
  cases a with
  | done => rfl
  | fail error => rfl
  | panic p => rfl
  | _ => cases h

/-- A step of an activity that is not over and does not hang has one effect. -/
theorem step_effect (c : Collaborators χ σ ρ π) (s : Shared χ σ π) {a : Activity}
    (hover : a.ending? = none) (hhang : a ≠ .hang) :
    ∃ x : Effect, a.effect? c s = some x ∧ After a x (a.step c s).1 ∧ x.Turns c s (a.step c s).2 := by
  cases a with
  | done => simp [ending?] at hover
  | fail error => simp [ending?] at hover
  | panic p => simp [ending?] at hover
  | hang => exact absurd rfl hhang
  | publish d rest => exact ⟨_, rfl, .publish, rfl⟩
  | enqueue v rest => exact ⟨_, rfl, .enqueue, rfl⟩
  | scopeRecord contract scope rest => exact ⟨_, rfl, .scopeRecord, _, rfl, rfl⟩
  | retrieve scope rest => exact ⟨_, rfl, .retrieve, _, rfl, rfl⟩
  | verify scope asset rest => exact ⟨_, rfl, .verify, _, rfl, rfl⟩

end Activity

/-! ### Activities that queue nothing -/

namespace Activity

/-- The activity queues nothing, whatever answers it gets. -/
def Quiet : Activity → Prop
  | .enqueue _ _ => False
  | .publish _ rest => rest.Quiet
  | .scopeRecord _ _ rest => ∀ answer, (rest answer).Quiet
  | .retrieve _ rest => ∀ answer, (rest answer).Quiet
  | .verify _ _ rest => ∀ answer, (rest answer).Quiet
  | _ => True

theorem Quiet.resume {α : Type} {rest : α → Activity} (h : ∀ answer, (rest answer).Quiet)
    (answer : Answer α) : (resume rest answer).Quiet := by
  cases answer with
  | value a => exact h a
  | panic p => trivial

theorem Quiet.course {a b : Activity} {xs : List Effect} (h : a.Quiet) (hc : Course a xs b) :
    b.Quiet := by
  induction hc with
  | nil => exact h
  | cons hx _ ih =>
    apply ih
    cases hx with
    | publish => exact h
    | enqueue => exact absurd h id
    | scopeRecord => exact Quiet.resume h _
    | retrieve => exact Quiet.resume h _
    | verify => exact Quiet.resume h _

/-- A course of such an activity queues nothing. -/
theorem Quiet.queued {a b : Activity} {xs : List Effect} (h : a.Quiet) (hc : Course a xs b) :
    xs.flatMap Effect.queued = [] := by
  induction hc with
  | nil => rfl
  | cons hx _ ih =>
    cases hx with
    | publish => exact ih h
    | enqueue => exact absurd h id
    | scopeRecord => exact ih (Quiet.resume h _)
    | retrieve => exact ih (Quiet.resume h _)
    | verify => exact ih (Quiet.resume h _)

/-- After a question that was answered, what comes next is what follows its answer. -/
theorem Course.resumed {α : Type} {rest : α → Activity} {answer : Answer α} {xs : List Effect}
    {v : Verification} {next : Activity} (h : Course (resume rest answer) xs (.enqueue v next)) :
    ∃ a, answer = .value a ∧ Course (rest a) xs (.enqueue v next) := by
  cases answer with
  | value a => exact ⟨a, rfl, h⟩
  | panic p => exact (Quiet.course (a := .panic p) trivial h).elim

end Activity

/-! ### Activities that queue one verification at most -/

namespace Activity

/-- The activity queues one verification at most, whatever answers it gets. -/
def Once : Activity → Prop
  | .enqueue _ rest => rest.Quiet
  | .publish _ rest => rest.Once
  | .scopeRecord _ _ rest => ∀ answer, (rest answer).Once
  | .retrieve _ rest => ∀ answer, (rest answer).Once
  | .verify _ _ rest => ∀ answer, (rest answer).Once
  | _ => True

theorem Quiet.once {a : Activity} (h : a.Quiet) : a.Once := by
  induction a with
  | enqueue v rest ih => exact absurd h id
  | publish d rest ih => exact ih h
  | scopeRecord contract scope rest ih => exact fun answer => ih answer (h answer)
  | retrieve scope rest ih => exact fun answer => ih answer (h answer)
  | verify scope asset rest ih => exact fun answer => ih answer (h answer)
  | _ => trivial

theorem Once.resume {α : Type} {rest : α → Activity} (h : ∀ answer, (rest answer).Once)
    (answer : Answer α) : (resume rest answer).Once := by
  cases answer with
  | value a => exact h a
  | panic p => trivial

/-- A course of such an activity queues nothing, or one verification that it came to. -/
theorem Once.queued {a b : Activity} {xs : List Effect} (h : a.Once) (hc : Course a xs b) :
    xs.flatMap Effect.queued = [] ∨ ∃ v before after rest, xs.flatMap Effect.queued = [v] ∧
      xs = before ++ .enqueue v :: after ∧ Course a before (.enqueue v rest) := by
  induction hc with
  | nil => exact .inl rfl
  | @cons a x b xs _ hx hrest ih =>
    -- an effect that queues nothing is passed over
    have hpass : b.Once → x.queued = [] → (x :: xs).flatMap Effect.queued = [] ∨
        ∃ v before after rest, (x :: xs).flatMap Effect.queued = [v] ∧
          x :: xs = before ++ .enqueue v :: after ∧ Course a before (.enqueue v rest) := by
      intro hb hqueued
      rw [List.flatMap_cons, hqueued, List.nil_append]
      refine (ih hb).imp id fun ⟨v, before, after, rest, hv, hxs, hbefore⟩ => ?_
      exact ⟨v, x :: before, after, rest, hv, by rw [hxs]; rfl, .cons hx hbefore⟩
    cases hx with
    | publish => exact hpass h rfl
    | @enqueue v =>
      refine .inr ⟨v, [], xs, b, ?_, rfl, .nil⟩
      rw [List.flatMap_cons, Quiet.queued h hrest]
      rfl
    | scopeRecord => exact hpass (Once.resume h _) rfl
    | retrieve => exact hpass (Once.resume h _) rfl
    | verify => exact hpass (Once.resume h _) rfl

end Activity

/-! ### What the default handlers queue -/

open Activity (After Course Once Quiet resume)

theorem conclude_quiet (event : Contract.Event) (result : Onboarding) :
    (conclude event result).Quiet := trivial

/-- The handler of reported decisions queues nothing. -/
theorem confirming_quiet (call : Call) : (confirming call).Quiet := by
  unfold confirming Call.ifAddressed
  split
  · trivial
  · split
    · dsimp only
      split
      · trivial
      · intro answer
        cases answer <;> trivial
    · trivial

/-- A decision is queued after the asset was retrieved and the decision made. -/
theorem decide_enqueues {event : Contract.Event} {scope : ScopeRecord} {xs : List Effect}
    {v : Verification} {rest : Activity} (h : Course (decide event scope) xs (.enqueue v rest)) :
    ∃ asset, v.event = event ∧ v.scope = scope ∧
      xs = [.retrieve scope (.value (.ok asset)), .verify scope asset (.value (.ok v.decision))] := by
  unfold decide at h
  obtain _ | ⟨⟨⟩, h⟩ := h
  obtain ⟨retrieved, rfl, hretrieved⟩ := h.resumed
  cases retrieved with
  | error fault => exact (Quiet.course (conclude_quiet event _) hretrieved).elim
  | ok asset =>
    obtain _ | ⟨⟨⟩, h⟩ := hretrieved
    obtain ⟨verified, rfl, hverified⟩ := h.resumed
    cases verified with
    | error fault => exact (Quiet.course (conclude_quiet event _) hverified).elim
    | ok decision =>
      obtain _ | ⟨⟨⟩, h⟩ := hverified
      · exact ⟨asset, rfl, rfl, rfl⟩
      · exact (Quiet.course (conclude_quiet event _) h).elim

/-- A decision about a scope is queued after the scope was found pending. -/
theorem inspect_enqueues {call : Call} {scope : String} {xs : List Effect} {v : Verification}
    {rest : Activity} (h : Course (inspect call scope) xs (.enqueue v rest)) :
    ∃ asset, v.event = call.event ∧ v.scope.status = .pending ∧
      xs = [.scopeRecord call.contract scope (.value (.ok v.scope)),
        .retrieve v.scope (.value (.ok asset)),
        .verify v.scope asset (.value (.ok v.decision))] := by
  unfold inspect at h
  obtain _ | ⟨⟨⟩, h⟩ := h
  obtain ⟨found, rfl, hnext⟩ := h.resumed
  cases found with
  | error failure => exact (Quiet.course (conclude_quiet call.event _) hnext).elim
  | ok record =>
    dsimp only at hnext
    split at hnext
    next hpending =>
      obtain ⟨asset, hevent, rfl, rfl⟩ := decide_enqueues hnext
      exact ⟨asset, hevent, hpending, rfl⟩
    next => exact (Quiet.course (conclude_quiet call.event _) hnext).elim

/-- **A verification is queued for an onboarding event only if the event names this verifier, a scope and an
asset type, and only after three answers**: the scope is pending, its asset was retrieved, and the decision was
made. -/
theorem onboarding_enqueues {call : Call} {xs : List Effect} {v : Verification} {rest : Activity}
    (h : Course (onboarding call) xs (.enqueue v rest)) :
    call.event.verifierAddress = some call.signer.address ∧ (∃ type, call.event.assetType = some type) ∧
      ∃ scope asset, call.event.scopeAddress = some scope ∧ v.event = call.event ∧
        v.scope.status = .pending ∧
        xs = [.scopeRecord call.contract scope (.value (.ok v.scope)),
          .retrieve v.scope (.value (.ok asset)),
          .verify v.scope asset (.value (.ok v.decision))] := by
  unfold onboarding Call.ifAddressed at h
  split at h
  · exact (Quiet.course (a := .publish _ .done) trivial h).elim
  next address haddress =>
    split at h
    next hsigner =>
      dsimp only at h
      split at h
      · exact (Quiet.course (a := .publish _ .done) trivial h).elim
      · exact (Quiet.course (a := .publish _ .done) trivial h).elim
      next scope type hscope htype =>
        obtain ⟨asset, hevent, hpending, hxs⟩ := inspect_enqueues h
        have haddr : call.signer.address = address := by
          simpa [Signing.Signer.isAddressedBy] using hsigner
        exact ⟨by rw [haddress, haddr], ⟨type, htype⟩, scope, asset, hscope, hevent, hpending, hxs⟩
    · exact (Quiet.course (a := .publish _ .done) trivial h).elim

/-- Of the default handlers only that of onboarding events queues verifications. -/
theorem default_enqueues {kind : Contract.EventKind} {handler : Handler} {call : Call} {a : Activity}
    (hget : Registry.default.get? kind = some handler) (hcall : handler call = .ok a)
    {xs : List Effect} {v : Verification} {rest : Activity}
    (h : Course a xs (.enqueue v rest)) : kind = .onboardAsset ∧ a = onboarding call := by
  obtain ⟨-, rfl⟩ | ⟨hkind, rfl⟩ := Registry.of_default hget
  · obtain rfl := Except.ok.inj hcall
    exact (Quiet.course (confirming_quiet call) h).elim
  · exact ⟨hkind, (Except.ok.inj hcall).symm⟩

/-- The handler of onboarding events queues one decision at most. -/
theorem onboarding_once (call : Call) : (onboarding call).Once := by
  have hdecide : ∀ event scope, (decide event scope).Once := by
    intro event scope retrieved
    cases retrieved with
    | error fault => trivial
    | ok asset =>
      intro verified
      cases verified <;> trivial
  have hinspect : ∀ scope, (inspect call scope).Once := by
    intro scope found
    cases found with
    | error failure => trivial
    | ok record =>
      dsimp only
      split
      · exact hdecide _ _
      · trivial
  unfold onboarding Call.ifAddressed
  split
  · trivial
  · split
    · dsimp only
      split
      · trivial
      · trivial
      · exact hinspect _
    · trivial

/-- The default handlers queue one verification at most for an event. -/
theorem default_once {kind : Contract.EventKind} {handler : Handler} {call : Call} {a : Activity}
    (hget : Registry.default.get? kind = some handler) (hcall : handler call = .ok a) : a.Once := by
  obtain ⟨-, rfl⟩ | ⟨-, rfl⟩ := Registry.of_default hget
  · obtain rfl := Except.ok.inj hcall
    exact (confirming_quiet call).once
  · obtain rfl := Except.ok.inj hcall
    exact onboarding_once call

end Attestor.Handler
