import Attestor.Proofs.Routings

/-!
Routing several events, one after the other. What is done are the effects of routing each of them, up to the first
whose handler never returns or panics when it is called (`routeAll_performed`). If routing comes to an end it has routed
all events (`count_of_routeAll`); and it does if all handlers return (`routeAll_of_returns`), as the default ones do.
-/

namespace Attestor

/-! ### Handlers that return -/

namespace Handler

/-- Whatever an activity does is allowed, but it may not hang. -/
def Conduct.free : Conduct := ⟨fun _ _ => True, fun _ _ => True⟩

theorem Activity.KeepsTo.free {r : Conduct} {a : Activity} {xs : List Effect} (h : a.KeepsTo r xs) :
    a.KeepsTo .free xs := by
  induction a generalizing xs with
  | hang => exact h
  | publish d rest ih => exact ⟨trivial, ih h.2⟩
  | enqueue v rest ih => exact ⟨trivial, ih h.2⟩
  | scopeRecord contract scope rest ih => exact ⟨fun _ => trivial, fun _ => trivial, fun a => ih a (h.2.2 a)⟩
  | retrieve scope rest ih => exact ⟨fun _ => trivial, fun _ => trivial, fun a => ih a (h.2.2 a)⟩
  | verify scope asset rest ih => exact ⟨fun _ => trivial, fun _ => trivial, fun a => ih a (h.2.2 a)⟩
  | _ => trivial

/-- Calling a handler of the registry gives an activity, which comes to an end whatever it is answered. -/
def Registry.Returns (r : Registry) : Prop :=
  ∀ kind handler, r.get? kind = some handler → ∀ call, ∃ a, handler call = .ok a ∧ a.KeepsTo .free []

theorem default_returns : Registry.default.Returns := by
  intro kind handler hget call
  obtain ⟨a, ha⟩ := Routing.default_call hget call
  exact ⟨a, ha, (default_keepsTo hget ha).free⟩

end Handler

/-! ### One event after the other -/

namespace Routing

open Contract (Event)
open Handler (Effect Performed)

variable {χ σ ρ π : Type}

/-- The effects of routing events to their ends, as long as they have one. -/
def Router.allEffects (r : Router) (c : Collaborators χ σ ρ π) : List Event → Shared χ σ π → List Effect
  | [], _ => []
  | e :: es, s =>
    r.effects c e s ++
      match r.route c e s with
      | (.settled _, s) => r.allEffects c es s
      | _ => []

/-- The result of routing events, from that of the first. -/
theorem Router.routeAll_cons (r : Router) (c : Collaborators χ σ ρ π) (e : Event) (es : List Event)
    (s : Shared χ σ π) :
    r.routeAll c (e :: es) s =
      match r.route c e s with
      | (.settled _, s) => ((r.routeAll c es s).1.map (· + 1), (r.routeAll c es s).2)
      | (stuck, s) => (.error stuck, s) := by
  rw [routeAll]
  rcases r.route c e s with ⟨outcome | _ | p, s'⟩
  · dsimp only
    rcases r.routeAll c es s' with ⟨stuck | n, s''⟩ <;> rfl
  · rfl
  · rfl

/-- Routing events performs their effects. -/
theorem Router.routeAll_performed (r : Router) (c : Collaborators χ σ ρ π) (es : List Event) (s : Shared χ σ π) :
    Performed c s (r.allEffects c es s) (r.routeAll c es s).2 := by
  induction es generalizing s with
  | nil => exact .nil
  | cons e es ih =>
    have hfirst := r.route_performed c e s
    rw [allEffects, routeAll_cons]
    rcases hroute : r.route c e s with ⟨outcome | _ | p, s'⟩ <;> rw [hroute] at hfirst
    · exact hfirst.append (ih s')
    · exact hfirst.append .nil
    · exact hfirst.append .nil

/-- If routing events comes to an end, it has routed all of them. -/
theorem Router.count_of_routeAll {r : Router} {c : Collaborators χ σ ρ π} {es : List Event} {s : Shared χ σ π} {n : Nat}
    (h : (r.routeAll c es s).1 = .ok n) : n = es.length := by
  induction es generalizing s n with
  | nil => exact (Except.ok.inj h).symm
  | cons e es ih =>
    rw [routeAll_cons] at h
    rcases hroute : r.route c e s with ⟨outcome | _ | p, s'⟩ <;> rw [hroute] at h
    · dsimp only at h
      cases hrest : (r.routeAll c es s').1 with
      | error stuck => rw [hrest] at h; cases h
      | ok m =>
        rw [hrest] at h
        rw [List.length_cons, ← ih hrest]
        exact (Except.ok.inj h).symm
    · cases h
    · cases h

/-- Routing an event comes to an end if the handlers return. -/
theorem Router.route_of_returns {r : Router} (hr : r.registry.Returns) (c : Collaborators χ σ ρ π) (e : Event)
    (s : Shared χ σ π) : ∃ outcome, (r.route c e s).1 = .settled outcome := by
  cases hdirect : r.direct e with
  | ignore outcome reason => exact ⟨outcome, by rw [(route_ignored hdirect c s).2]⟩
  | handle kind handler =>
    obtain ⟨a, hcall, hkeeps⟩ := hr kind handler (Router.of_direct hdirect).2.2 ⟨e, r.contract, r.signer⟩
    obtain ⟨ending, b, hrun, -, -⟩ := hkeeps.run c s
    exact ⟨_, by rw [(route_handled hdirect hcall c (Prod.ext hrun rfl : a.run c s = (some ending, _))).2]⟩

theorem Router.routeAll_of_returns {r : Router} (hr : r.registry.Returns) (c : Collaborators χ σ ρ π)
    (es : List Event) (s : Shared χ σ π) : (r.routeAll c es s).1 = .ok es.length := by
  induction es generalizing s with
  | nil => rfl
  | cons e es ih =>
    obtain ⟨outcome, houtcome⟩ := route_of_returns hr c e s
    rw [routeAll_cons, show r.route c e s = (.settled outcome, (r.route c e s).2) from Prod.ext houtcome rfl]
    dsimp only
    rw [ih]
    rfl

end Routing

end Attestor
