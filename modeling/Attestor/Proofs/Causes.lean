import Attestor.Proofs.Transitions

/-!
Causes of queued verifications. Moments are numbered, `past i` is the shared state at moment `i`, and `arrived i e`
says that the event `e` arrived then. An event that is being handled is `Underway`: it arrived, passed the
filters of the router, and its handler has had effects at later moments, each of which turned the state of its
moment into the next one. A step of an agenda keeps that, and whatever it queues is queued by an event under way
(`Agenda.step_sound`).
-/

namespace Attestor.Routing

open Contract (Event Verification)
open Handler (Activity Effect)
open Handler.Activity (Course)

variable {χ σ ρ π : Type}

/-- An event goes to a handler only past all filters. -/
theorem Router.of_direct {r : Router} {e : Event} {kind : Contract.EventKind} {handler : Handler}
    (h : r.direct e = .handle kind handler) :
    e.kind = some kind ∧ e.contractAddress = some r.contract ∧ r.registry.get? kind = some handler := by
  unfold direct at h
  split at h
  · cases h
  next hkind =>
    split at h
    next hcontract =>
      split at h
      · cases h
      next hget =>
        cases h
        exact ⟨hkind, hcontract, hget⟩
    next => cases h

section

variable (r : Router) (c : Collaborators χ σ ρ π) (past : Nat → Shared χ σ π)
  (arrived : Nat → Event → Prop)

/-- The effects came at the moments beside them, after `first` and before `now`, one after the other. -/
structure Seen (first now : Nat) (xs : List (Nat × Effect)) : Prop where
  within : ∀ x ∈ xs, first < x.1 ∧ x.1 < now
  turns : ∀ x ∈ xs, x.2.Turns c (past x.1) (past (x.1 + 1))
  ordered : xs.Pairwise fun x y => x.1 < y.1

/-- The event arrived before the moment `now`. -/
def Arrived (now : Nat) (e : Event) : Prop :=
  ∃ i < now, arrived i e

/-- Before the moment `now` the event arrived, went to its handler, and the handler came to where it is. -/
def Underway (now : Nat) (d : Dispatch) : Prop :=
  ∃ first < now, arrived first d.event ∧ ∃ handler a xs, r.direct d.event = .handle d.kind handler ∧
    r.call d.event handler = .ok a ∧ Course a (xs.map Prod.snd) d.activity ∧ Seen c past first now xs

/-- An event under way at the moment `now` is about to queue a verification. -/
def Queues (now : Nat) (v : Verification) : Prop :=
  ∃ d rest, Underway r c past arrived now d ∧ d.activity = .enqueue v rest

/-- Every event on the agenda has arrived, and the one that is being handled is under way. -/
structure Agenda.Sound (now : Nat) (a : Agenda) : Prop where
  current : ∀ d, a.current = some d → Underway r c past arrived now d
  waiting : ∀ e ∈ a.waiting, Arrived arrived now e

end

variable {r : Router} {c : Collaborators χ σ ρ π} {past : Nat → Shared χ σ π}
  {arrived : Nat → Event → Prop} {now : Nat}

/-! ### Later moments -/

theorem Seen.nil {first : Nat} : Seen c past first now [] :=
  ⟨fun _ hx => absurd hx List.not_mem_nil, fun _ hx => absurd hx List.not_mem_nil, .nil⟩

theorem Seen.later {first : Nat} {xs : List (Nat × Effect)} (h : Seen c past first now xs) :
    Seen c past first (now + 1) xs :=
  ⟨fun x hx => ⟨(h.within x hx).1, Nat.lt_succ_of_lt (h.within x hx).2⟩, h.turns, h.ordered⟩

/-- An effect of the present moment is seen at the next one. -/
theorem Seen.snoc {first : Nat} {xs : List (Nat × Effect)} (h : Seen c past first now xs)
    (hfirst : first < now) {x : Effect} (hx : x.Turns c (past now) (past (now + 1))) :
    Seen c past first (now + 1) (xs ++ [(now, x)]) := by
  refine ⟨fun y hy => ?_, fun y hy => ?_, ?_⟩
  · rcases List.mem_append.mp hy with hy | hy
    · exact h.later.within y hy
    · obtain rfl := List.mem_singleton.mp hy
      exact ⟨hfirst, Nat.lt_succ_self now⟩
  · rcases List.mem_append.mp hy with hy | hy
    · exact h.turns y hy
    · obtain rfl := List.mem_singleton.mp hy
      exact hx
  · refine List.pairwise_append.mpr ⟨h.ordered, List.pairwise_singleton _ _, fun y hy z hz => ?_⟩
    obtain rfl := List.mem_singleton.mp hz
    exact (h.within y hy).2

/-- Three effects came at three moments. -/
theorem Seen.three {first : Nat} {xs : List (Nat × Effect)} {x y z : Effect}
    (h : Seen c past first now xs) (hxs : xs.map Prod.snd = [x, y, z]) :
    ∃ i j k, (first < i ∧ i < j ∧ j < k ∧ k < now) ∧ x.Turns c (past i) (past (i + 1)) ∧
      y.Turns c (past j) (past (j + 1)) ∧ z.Turns c (past k) (past (k + 1)) := by
  obtain ⟨⟨i, _⟩, ys, rfl, rfl, hys⟩ := List.map_eq_cons_iff.mp hxs
  obtain ⟨⟨j, _⟩, zs, rfl, rfl, hzs⟩ := List.map_eq_cons_iff.mp hys
  obtain ⟨⟨k, _⟩, ws, rfl, rfl, hws⟩ := List.map_eq_cons_iff.mp hzs
  obtain rfl := List.map_eq_nil_iff.mp hws
  have hordered := h.ordered
  simp only [List.pairwise_cons, List.mem_cons, forall_eq_or_imp] at hordered
  refine ⟨i, j, k, ⟨(h.within (i, _) (List.mem_cons_self ..)).1, hordered.1.1, hordered.2.1.1, ?_⟩,
    h.turns _ (List.mem_cons_self ..), h.turns _ (List.mem_cons_of_mem _ (List.mem_cons_self ..)),
    h.turns _ (List.mem_cons_of_mem _ (List.mem_cons_of_mem _ (List.mem_cons_self ..)))⟩
  exact (h.within (k, _) (List.mem_cons_of_mem _ (List.mem_cons_of_mem _ (List.mem_cons_self ..)))).2

theorem Arrived.later {e : Event} (h : Arrived arrived now e) : Arrived arrived (now + 1) e := by
  obtain ⟨i, hi, he⟩ := h
  exact ⟨i, Nat.lt_succ_of_lt hi, he⟩

theorem Underway.later {d : Dispatch} (h : Underway r c past arrived now d) :
    Underway r c past arrived (now + 1) d := by
  obtain ⟨first, hfirst, harrived, handler, a, xs, hdirect, hcall, hcourse, hseen⟩ := h
  exact ⟨first, Nat.lt_succ_of_lt hfirst, harrived, handler, a, xs, hdirect, hcall, hcourse, hseen.later⟩

theorem Agenda.Sound.later {a : Agenda} (h : a.Sound r c past arrived now) :
    a.Sound r c past arrived (now + 1) :=
  ⟨fun d hd => (h.current d hd).later, fun e he => (h.waiting e he).later⟩

/-- Events that have arrived make a sound agenda. -/
theorem Agenda.Sound.ofEvents {es : List Event} (h : ∀ e ∈ es, Arrived arrived now e) :
    (Agenda.ofEvents es).Sound r c past arrived now :=
  ⟨nofun, h⟩

/-! ### One step -/

/-- An effect of an event under way: it stays under way, and what it queues is what it was about to queue. -/
theorem Underway.step {d : Dispatch} (h : Underway r c past arrived now d) {x : Effect} {a : Activity}
    (hafter : d.activity.After x a) (hturns : x.Turns c (past now) (past (now + 1))) :
    Underway r c past arrived (now + 1) { d with activity := a } ∧
      (x.queued = [] ∨ ∃ v, x.queued = [v] ∧ Queues r c past arrived now v) := by
  have hunder := h
  obtain ⟨first, hfirst, harrived, handler, b, xs, hdirect, hcall, hcourse, hseen⟩ := h
  refine ⟨⟨first, Nat.lt_succ_of_lt hfirst, harrived, handler, b, xs ++ [(now, x)], hdirect, hcall, ?_,
    hseen.snoc hfirst hturns⟩, ?_⟩
  · rw [List.map_append]
    exact hcourse.snoc hafter
  · obtain ⟨event, kind, activity⟩ := d
    cases hafter with
    | @enqueue v => exact .inr ⟨v, rfl, _, a, hunder, rfl⟩
    | _ => exact .inl rfl

/-- What a step of an agenda queues, and that the agenda stays sound. -/
theorem Agenda.step_sound {a a' : Agenda} (h : a.Sound r c past arrived now)
    (hstep : a.step r c (past now) = .moved (a', past (now + 1))) :
    a'.Sound r c past arrived (now + 1) ∧ ∃ vs,
      (past (now + 1)).outbound.log = (past now).outbound.log ++ vs ∧
        (vs = [] ∨ ∃ v, vs = [v] ∧ Queues r c past arrived now v) := by
  have hchange := Agenda.step_change hstep
  generalize hnext : past (now + 1) = s' at hchange
  cases hchange with
  | ended hending =>
    refine ⟨⟨nofun, h.later.waiting⟩, [], ?_, .inl rfl⟩
    unfold report
    split <;> simp [Shared.publish]
  | acted hx hafter hturns =>
    obtain ⟨hunder, hqueues⟩ := (h.current _ rfl).step hafter (hnext ▸ hturns)
    refine ⟨⟨fun d hd => ?_, h.later.waiting⟩, _, hturns.log, hqueues⟩
    obtain rfl := Option.some.inj hd
    exact hunder
  | @ignored e waiting outcome reason hdirect =>
    refine ⟨⟨nofun, fun x hx => ?_⟩, [], by simp [Shared.publish], .inl rfl⟩
    exact h.later.waiting x (List.mem_cons_of_mem e hx)
  | @called e waiting kind handler activity hdirect hcall =>
    refine ⟨⟨fun d hd => ?_, fun x hx => h.later.waiting x (List.mem_cons_of_mem e hx)⟩, [], by simp, .inl rfl⟩
    obtain rfl := Option.some.inj hd
    obtain ⟨first, hfirst, harrived⟩ := h.waiting e (List.mem_cons_self ..)
    exact ⟨first, Nat.lt_succ_of_lt hfirst, harrived, handler, activity, [], hdirect, hcall, .nil, .nil⟩

end Attestor.Routing
