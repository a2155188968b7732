/-!
Logs: lists that grow at their end. What is known of an entry is known when it is added, and depends on the
entries before it; so it is kept while the log grows (`Fitting.snoc`).
-/

namespace Attestor

variable {α : Type}

/-- Every entry of the log fits the entries before it. -/
def Fitting (P : List α → α → Prop) (log : List α) : Prop :=
  ∀ pre x post, log = pre ++ x :: post → P pre x

namespace Fitting

variable {P : List α → α → Prop} {log : List α}

theorem nil : Fitting P [] := fun pre x post h => absurd h (by simp)

theorem mono {Q : List α → α → Prop} (h : Fitting P log) (hpq : ∀ pre x, P pre x → Q pre x) : Fitting Q log :=
  fun pre x post hlog => hpq pre x (h pre x post hlog)

/-- A log with one more entry. -/
theorem snoc (h : Fitting P log) {x : α} (hx : P log x) : Fitting P (log ++ [x]) := by
  intro pre y post hlog
  rcases List.eq_nil_or_concat post with rfl | ⟨post', z, rfl⟩
  · obtain ⟨rfl, hxy⟩ := List.append_inj' hlog rfl
    obtain rfl := (List.cons.inj hxy).1
    exact hx
  · have hshorter : log ++ [x] = (pre ++ y :: post') ++ [z] := by rw [hlog]; simp
    exact h pre y post' (List.append_inj' hshorter rfl).1

/-- A log with one entry less. -/
theorem of_concat {x : α} (h : Fitting P (log ++ [x])) : Fitting P log ∧ P log x := by
  refine ⟨fun pre y post hlog => h pre y (post ++ [x]) ?_, h log x [] rfl⟩
  rw [hlog]
  simp

end Fitting

end Attestor
