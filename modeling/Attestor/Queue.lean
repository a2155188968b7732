/-!
Queues: first in, first out, without a bound. A queue keeps the log of everything that was ever published and
how much of it has been taken; what is queued is the rest. So the items taken so far, followed by those still
queued, are the items published, in order, whatever happens to the queue.
-/

namespace Attestor

/-- A queue, as the log of what was published and the number of items taken from its front. -/
structure Queue (α : Type) where
  log : List α
  taken : Nat
  taken_le : taken ≤ log.length

namespace Queue

variable {α : Type}

/-- Nothing published. -/
def empty : Queue α := ⟨[], 0, Nat.le_refl 0⟩

/-- The items that wait, oldest first. -/
def items (q : Queue α) : List α :=
  q.log.drop q.taken

/-- The items taken so far, in order. -/
def history (q : Queue α) : List α :=
  q.log.take q.taken

/-- How many items were ever published. -/
def published (q : Queue α) : Nat :=
  q.log.length

/-- Adds an item behind the others. -/
def publish (q : Queue α) (a : α) : Queue α :=
  ⟨q.log ++ [a], q.taken, by have := q.taken_le; simp; omega⟩

/-- The oldest item, and the queue without it. -/
def next? (q : Queue α) : Option (α × Queue α) :=
  if h : q.taken < q.log.length then some (q.log[q.taken], ⟨q.log, q.taken + 1, h⟩) else none

/-- The queue after at most `max` items have been taken. -/
def take (max : Nat) (q : Queue α) : List α × Queue α :=
  (q.items.take max, ⟨q.log, min (q.taken + max) q.log.length, Nat.min_le_right _ _⟩)

/-- All items that wait, and the queue without them. -/
def drain (q : Queue α) : List α × Queue α :=
  (q.items, ⟨q.log, q.log.length, Nat.le_refl _⟩)

/-- What was taken and what waits is what was published. -/
theorem history_append_items (q : Queue α) : q.history ++ q.items = q.log :=
  List.take_append_drop _ _

@[simp] theorem items_empty : (empty : Queue α).items = [] := rfl

@[simp] theorem log_publish (q : Queue α) (a : α) : (q.publish a).log = q.log ++ [a] := rfl

@[simp] theorem items_publish (q : Queue α) (a : α) : (q.publish a).items = q.items ++ [a] := by
  simp [items, publish, List.drop_append_of_le_length q.taken_le]

@[simp] theorem history_publish (q : Queue α) (a : α) : (q.publish a).history = q.history := by
  simp [history, publish, List.take_append_of_le_length q.taken_le]

theorem next?_eq_none_iff {q : Queue α} : q.next? = none ↔ q.items = [] := by
  simp [next?, items]

/-- Taking the oldest item leaves the log, and moves the item from what waits to what was taken. -/
theorem of_next? {q q' : Queue α} {a : α} (h : q.next? = some (a, q')) :
    q'.log = q.log ∧ q.items = a :: q'.items ∧ q'.history = q.history ++ [a] := by
  simp only [next?] at h
  split at h
  next hlt =>
    simp only [Option.some.injEq, Prod.mk.injEq] at h
    obtain ⟨rfl, rfl⟩ := h
    refine ⟨rfl, ?_, ?_⟩
    · simp [items]
    · exact List.take_succ_eq_append_getElem hlt
  next => simp at h

theorem drain_fst (q : Queue α) : q.drain.1 = q.items := rfl

theorem items_drain (q : Queue α) : q.drain.2.items = [] := by
  simp [drain, items]

theorem history_drain (q : Queue α) : q.drain.2.history = q.history ++ q.items := by
  rw [history_append_items]
  exact List.take_length

theorem items_take (max : Nat) (q : Queue α) :
    (q.take max).1 ++ (q.take max).2.items = q.items := by
  have h := q.taken_le
  simp only [take, items]
  by_cases hm : q.taken + max ≤ q.log.length
  · rw [Nat.min_eq_left hm, ← List.drop_drop]
    exact List.take_append_drop _ _
  · have hd : (q.log.drop q.taken).length ≤ max := by simp; omega
    rw [Nat.min_eq_right (by omega), List.take_of_length_le hd]
    simp

/-- Taking moves items from what waits to what was taken. -/
theorem history_take (max : Nat) (q : Queue α) : (q.take max).2.history = q.history ++ (q.take max).1 := by
  have hsplit : (q.take max).2.history ++ (q.take max).2.items = (q.history ++ (q.take max).1) ++ (q.take max).2.items := by
    rw [List.append_assoc, items_take, history_append_items, history_append_items]
    rfl
  exact List.append_cancel_right hsplit

/-- Nothing is taken where nothing waits. -/
theorem take_of_items_eq_nil {q : Queue α} (h : q.items = []) (max : Nat) : q.take max = ([], q) := by
  have htaken : min (q.taken + max) q.log.length = q.taken := by
    have hlength : q.log.length ≤ q.taken := List.drop_eq_nil_iff.mp h
    have hle := q.taken_le
    omega
  simp only [take, h, List.take_nil, htaken]

/-- To take one more is to take the oldest item first. -/
theorem take_of_next? {q q' : Queue α} {a : α} (h : q.next? = some (a, q')) (max : Nat) :
    q.take (max + 1) = (a :: (q'.take max).1, (q'.take max).2) := by
  have hitems := (of_next? h).2.1
  simp only [next?] at h
  split at h
  next =>
    simp only [Option.some.injEq, Prod.mk.injEq] at h
    obtain ⟨-, rfl⟩ := h
    simp only [take, hitems, List.take_succ_cons, Nat.add_right_comm, ← Nat.add_assoc]
  next => cases h

end Queue

end Attestor
