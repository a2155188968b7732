import Attestor.Proofs.Chronicle
import Attestor.Proofs.Encodings

/-!
Questions and answers. A question to the chain client or to the asset verifier stands among the effects with the answer
that it got. Two courses of effects are `AnsweredAlike` if a question that comes in both after the same questions and
answers is answered alike; collaborators that always answer a question in the same way see to that
(`AnsweredAlike.of_genuine`). What a stream task has told, queued and asked is put on record as its `Doings`; what
others tell and queue between its steps is not counted.
-/

namespace Attestor

open Contract (Verification)
open Handler (Effect Performed)

/-! ### Questions -/

namespace Handler.Effect

/-- The effect asks a collaborator something. -/
def asks : Effect → Bool
  | .publish _ => false
  | .enqueue _ => false
  | _ => true

/-- The effects ask the same. -/
def Repeats : Effect → Effect → Prop
  | .scopeRecord contract scope _, .scopeRecord contract' scope' _ => contract = contract' ∧ scope = scope'
  | .retrieve scope _, .retrieve scope' _ => scope = scope'
  | .verify scope asset _, .verify scope' asset' _ => scope = scope' ∧ asset = asset'
  | _, _ => False

/-- The questions among effects, with their answers. -/
def questions (xs : List Effect) : List Effect := xs.filter asks

theorem questions_append (xs ys : List Effect) : questions (xs ++ ys) = questions xs ++ questions ys :=
  List.filter_append ..

/-- Publishing asks nothing. -/
theorem questions_publish (ds : List Diagnostic) : questions (ds.map .publish) = [] :=
  List.filter_eq_nil_iff.mpr fun x hx => by
    obtain ⟨d, -, rfl⟩ := List.mem_map.mp hx
    exact Bool.false_ne_true

/-- No question depends on an encoding. -/
theorem questions_of_plain {xs ys : List Effect} (h : xs.map plain = ys.map plain) : questions xs = questions ys := by
  have hmap : ∀ zs : List Effect, questions (zs.map plain) = questions zs := by
    intro zs
    induction zs with
    | nil => rfl
    | cons x zs ih =>
      cases x with
      | publish d => exact ih
      | enqueue v => exact ih
      | _ => exact congrArg (List.cons _) ih
  rw [← hmap xs, ← hmap ys, h]

end Handler.Effect

open Handler.Effect (questions)

/-- As long as all questions were the same and were answered alike, the next question is answered alike too, if it is
the same. -/
def AnsweredAlike (xs ys : List Effect) : Prop :=
  ∀ pre x y post post', xs = pre ++ x :: post → ys = pre ++ y :: post' → x.Repeats y → x = y

/-! ### Doings -/

/-- What was told, queued and asked. -/
structure Doings where
  told : List Diagnostic
  queued : List Verification
  asked : List Effect

namespace Doings

/-- Nothing. -/
def empty : Doings := ⟨[], [], []⟩

/-- What was done after some more effects. -/
def after (o : Doings) (xs : List Effect) : Doings :=
  ⟨o.told ++ xs.flatMap Effect.told, o.queued ++ xs.flatMap Effect.queued, o.asked ++ questions xs⟩

theorem after_nil (o : Doings) : o.after [] = o := by
  simp [after, questions]

theorem after_append (o : Doings) (xs ys : List Effect) : o.after (xs ++ ys) = (o.after xs).after ys := by
  simp [after, questions]

end Doings

namespace Stream

variable {χ σ ρ π : Type}

/-- What the step ahead asks, with the answer that it gets. -/
def Task.asks (c : Collaborators χ σ ρ π) (t : Task ρ) (s : Shared χ σ π) : List Effect :=
  questions (t.current?.bind fun d => d.activity.effect? c s).toList

theorem Task.asks_idle {t : Task ρ} (h : t.current? = none) (c : Collaborators χ σ ρ π) (s : Shared χ σ π) :
    t.asks c s = [] := by
  rw [Task.asks, h]
  rfl

/-- What was done after a step of a task. -/
def Task.doings (c : Collaborators χ σ ρ π) (t : Task ρ) (s s' : Shared χ σ π) (o : Doings) : Doings :=
  ⟨o.told ++ Chronicle.news s s', o.queued ++ s'.outbound.log.drop s.outbound.log.length, o.asked ++ t.asks c s⟩

/-- What was done after a step, from the effects that it has performed. -/
theorem Task.doings_performed {c : Collaborators χ σ ρ π} {t : Task ρ} {s s' : Shared χ σ π} {xs : List Effect}
    (h : Performed c s xs s') (hasks : t.asks c s = questions xs) (o : Doings) : t.doings c s s' o = o.after xs := by
  rw [Task.doings, Doings.after, Chronicle.news, h.diagnostics, h.outbound, List.drop_left, List.drop_left, hasks]

/-- What a task has done is put on record from one moment on. -/
instance : Recorder Doings := ⟨.empty, fun c _ _ t _ s s' o => t.doings c s s' o⟩

end Stream

/-! ### Collaborators that do not change their answers -/

/-- The effect got its answer from the collaborators, in whatever state. -/
def Handler.Effect.Genuine {χ σ ρ π : Type} (c : Collaborators χ σ ρ π) (x : Effect) : Prop :=
  ∃ s s', x.Turns c s s'

section

variable {χ σ ρ π : Type} {c : Collaborators χ σ ρ π}

theorem Handler.Performed.genuine {s s' : Shared χ σ π} {xs : List Effect} (h : Performed c s xs s') :
    ∀ x ∈ xs, x.Genuine c := by
  induction h with
  | nil => exact List.forall_mem_nil _
  | cons hx _ ih => exact List.forall_mem_cons.mpr ⟨⟨_, _, hx⟩, ih⟩

theorem Handler.Activity.effect?_genuine {a : Activity} {s : Shared χ σ π} {x : Effect} (h : a.effect? c s = some x) :
    x.Genuine c := by
  cases a with
  | publish d rest => cases h; exact ⟨s, _, rfl⟩
  | enqueue v rest => cases h; exact ⟨s, _, rfl⟩
  | scopeRecord contract scope rest => cases h; exact ⟨s, _, _, rfl, rfl⟩
  | retrieve scope rest => cases h; exact ⟨s, _, _, rfl, rfl⟩
  | verify scope asset rest => cases h; exact ⟨s, _, _, rfl, rfl⟩
  | _ => cases h

/-- What a task was answered, it was answered by the collaborators. -/
theorem Stream.Played.asked_genuine (d : Stream.Driver) {p : Stream.Played Doings χ σ ρ π}
    (h : ∀ x ∈ p.record.asked, x.Genuine c) (turns : Nat → Stream.Turn χ σ π) (n : Nat) :
    ∀ x ∈ (p.after d c turns n).record.asked, x.Genuine c := by
  refine p.run_induction (d := d) (c := c) (P := fun _ _ o => ∀ x ∈ o.asked, x.Genuine c) _
    (fun _ _ => fun ho _ => List.forall_mem_append.mpr ⟨ho, fun x hx => ?_⟩) h
  have hcurrent := Option.mem_toList.mp (List.mem_filter.mp hx).1
  obtain ⟨dispatch, -, heffect⟩ := Option.bind_eq_some_iff.mp hcurrent
  exact Handler.Activity.effect?_genuine heffect

/-- Collaborators that answer a question as they always do answer alike. -/
theorem AnsweredAlike.of_genuine {xs ys : List Effect} (hxs : ∀ x ∈ xs, x.Genuine c) (hys : ∀ y ∈ ys, y.Genuine c)
    (hsteady : ∀ x y : Effect, x.Genuine c → y.Genuine c → x.Repeats y → x = y) : AnsweredAlike xs ys := by
  rintro pre x y post post' rfl rfl hrepeats
  exact hsteady x y (hxs x (List.mem_append_right _ (List.mem_cons_self ..)))
    (hys y (List.mem_append_right _ (List.mem_cons_self ..))) hrepeats

end

end Attestor
