import Attestor.Restart.Retry
import Mathlib.Data.List.Induction

/-!
Attempts in closed form. The attempt of a restart is the length of the run of restarts from its height right before
it, or the greatest number if the run is longer; whatever came before that run is forgotten (`after_concat`). So it is
in any sequence of calls: what the call for a height gives can be read off the heights before it (`calls_counted`).
-/

namespace Attestor.Restart.Retry

open Chain (Height)

/-- The count after restarts from these heights. -/
def after (heights : List (Option Height)) : Retry := heights.foldl next initial

/-- How many heights at the end are this one. -/
def streak (heights : List (Option Height)) (height : Option Height) : Nat :=
  (heights.reverse.takeWhile (· = height)).length

/-- The attempt of a restart from a height, after restarts from these heights. -/
def attemptAfter (heights : List (Option Height)) (height : Option Height) : UInt32 :=
  .ofNat (min 0xffffffff (streak heights height))

theorem next_after (heights : List (Option Height)) (height : Option Height) :
    (after heights).next height = after (heights ++ [height]) := by
  rw [after, after, List.foldl_append]
  rfl

theorem streak_concat (heights : List (Option Height)) (last height : Option Height) :
    streak (heights ++ [last]) height = if last = height then streak heights height + 1 else 0 := by
  rw [streak, List.reverse_append, List.reverse_singleton, List.singleton_append, List.takeWhile_cons]
  by_cases h : last = height <;> simp [h, streak]

/-- The next attempt is one more, unless the number is the greatest one. -/
theorem successor_ofNat (n : Nat) :
    successor (.ofNat (min 0xffffffff n)) = .ofNat (min 0xffffffff (n + 1)) := by
  apply UInt32.toNat_inj.mp
  have hnat : (UInt32.ofNat (min 0xffffffff n)).toNat = min 0xffffffff n := by
    rw [UInt32.toNat_ofNat']
    omega
  by_cases h : n < 0xffffffff
  · have hlt : UInt32.ofNat (min 0xffffffff n) < 0xffffffff := by
      rw [UInt32.lt_iff_toNat_lt, hnat]
      exact Nat.lt_of_le_of_lt (Nat.min_le_right ..) h
    rw [successor, if_pos hlt, UInt32.toNat_add, hnat, UInt32.toNat_ofNat']
    show (_ + 1) % _ = _
    omega
  · have hnot : ¬ UInt32.ofNat (min 0xffffffff n) < 0xffffffff := by
      rw [UInt32.lt_iff_toNat_lt, hnat, Nat.not_lt]
      show 0xffffffff ≤ _
      omega
    rw [successor, if_neg hnot, hnat, UInt32.toNat_ofNat']
    omega

/-- A restart after others: the attempt grows while the height stays. -/
theorem next_attemptAfter (heights : List (Option Height)) (last height : Option Height) :
    next ⟨attemptAfter heights last, last, true⟩ height = ⟨attemptAfter (heights ++ [last]) height, height, true⟩ := by
  have hattempt : attemptAfter (heights ++ [last]) height =
      if last = height then successor (attemptAfter heights height) else 0 := by
    rw [attemptAfter, attemptAfter, streak_concat, successor_ofNat]
    by_cases h : last = height <;> simp [h]
  rw [next, hattempt]
  by_cases h : last = height <;> simp [h]

/-- **The attempt of a restart is the number of restarts from its height right before it**, up to the greatest
number. -/
theorem after_concat (heights : List (Option Height)) (height : Option Height) :
    after (heights ++ [height]) = ⟨attemptAfter heights height, height, true⟩ := by
  induction heights using List.reverseRecOn generalizing height with
  | nil => rfl
  | append_singleton heights last ih =>
    rw [← next_after, ih last, next_attemptAfter]

/-! ### Sequences of calls -/

/-- What the calls for these heights give, each with the count after it. -/
def calls (r : Retry) : List (Option Height) → List (UInt32 × Retry)
  | [] => []
  | height :: heights => r.nextAttempt height :: (r.next height).calls heights

/-- A call depends on the calls before it, and not on those after it. -/
theorem getElem?_calls (r : Retry) (heights : List (Option Height)) (i : Nat) :
    (r.calls heights)[i]? = heights[i]?.map fun height => ((heights.take i).foldl next r).nextAttempt height := by
  induction heights generalizing r i with
  | nil => rfl
  | cons height heights ih =>
    cases i with
    | zero => rfl
    | succ i => exact ih (r.next height) i

/-- Heights end with their streak, and the height before it, if there is one, is another one. -/
theorem exists_streak (heights : List (Option Height)) (height : Option Height) :
    ∃ before, heights = before ++ List.replicate (streak heights height) height ∧ before.getLast? ≠ some height := by
  have hsplit := List.takeWhile_append_dropWhile (p := (· = height)) (l := heights.reverse)
  have hstreak : heights.reverse.takeWhile (· = height) = List.replicate (streak heights height) height :=
    List.eq_replicate_of_mem fun x hmem => by simpa using List.all_eq_true.mp List.all_takeWhile x hmem
  refine ⟨(heights.reverse.dropWhile (· = height)).reverse, ?_, fun hlast => ?_⟩
  · rw [← List.reverse_replicate, ← hstreak, ← List.reverse_append, hsplit, List.reverse_reverse]
  · rw [List.getLast?_reverse] at hlast
    have hother := List.head?_dropWhile_not (· = height) heights.reverse
    rw [hlast] at hother
    simp at hother

/-- **The attempt for a height is the number of equal heights right before it**, or the greatest number if there are
more of them; that a height is unknown is a height like the others. The count after the call has the attempt and the
height. -/
theorem calls_counted (heights : List (Option Height)) (i : Fin heights.length) :
    ∃ attempt r n before, (initial.calls heights)[i.val]? = some (attempt, r) ∧
      heights.take i = before ++ List.replicate n (heights.get i) ∧ before.getLast? ≠ some (heights.get i) ∧
      attempt.toNat = min 0xffffffff n ∧ (i.val = 0 → attempt = 0) ∧
      r.attempt = attempt ∧ r.stuckHeight = heights.get i := by
  obtain ⟨before, hsplit, hlast⟩ := exists_streak (heights.take i) (heights.get i)
  have hcall : (initial.calls heights)[i.val]? = some (attemptAfter (heights.take i) (heights.get i),
      ⟨attemptAfter (heights.take i) (heights.get i), heights.get i, true⟩) := by
    have hget : heights[i.val]? = some (heights.get i) := List.getElem?_eq_getElem i.isLt
    have hcount : ((heights.take i).foldl next initial).next (heights.get i) = _ :=
      (next_after (heights.take i) (heights.get i)).trans (after_concat _ _)
    rw [getElem?_calls, hget, Option.map_some, nextAttempt, hcount]
  refine ⟨_, _, _, before, hcall, hsplit, hlast, ?_, fun hfirst => ?_, rfl, rfl⟩
  · rw [attemptAfter, UInt32.toNat_ofNat']
    omega
  · rw [hfirst]
    rfl

end Attestor.Restart.Retry
