import Attestor.Diagnostic.Meter
import Attestor.Proofs.Conduct
import Mathlib.Algebra.BigOperators.Group.List.Lemmas
import Mathlib.Data.List.Dedup

/-!
What diagnostics do to counters. The increase of a family of counters over all its labels is the number of times that
one of them is raised (`total_eq_countP`); it does not depend on the order in which diagnostics are handled
(`increase_perm`). A diagnostic that tells what came of handling an event raises one counter, once, of the families that
count events (`Diagnostic.Concerns.raises`); a diagnostic that is about no event raises none of these.
-/

namespace Attestor

open Contract (Event)

namespace Counter

/-! ### Increases -/

theorem nodup_eraseDups {α : Type} [DecidableEq α] (l : List α) : l.eraseDups.Nodup := by
  induction h : l.length using Nat.strongRecOn generalizing l with
  | ind n ih =>
    cases l with
    | nil => exact .nil
    | cons a l =>
      rw [List.eraseDups_cons, List.nodup_cons]
      have hlt : (l.filter fun b => !b == a).length < n :=
        Nat.lt_of_le_of_lt (List.length_filter_le ..) (h ▸ Nat.lt_succ_self _)
      refine ⟨fun hmem => ?_, ih _ hlt _ rfl⟩
      simpa using (List.mem_filter.mp (List.mem_eraseDups.mp hmem)).2

/-- By how much diagnostics raise the counters of a family together, over all labels. -/
def total (family : Counter → Bool) (ds : List Diagnostic) : Nat :=
  ((increases ds).filter (family ·.1)).foldr (·.2 + ·) 0

/-- The increase over all labels is the number of times that a counter of the family is raised. -/
theorem total_eq_countP (family : Counter → Bool) (ds : List Diagnostic) :
    total family ds = (ds.flatMap Diagnostic.counters).countP family := by
  have hperm : (ds.flatMap Diagnostic.counters).eraseDups.Perm (ds.flatMap Diagnostic.counters).dedup :=
    (List.perm_ext_iff_of_nodup (nodup_eraseDups _) (List.nodup_dedup _)).mpr fun c => by
      rw [List.mem_eraseDups, List.mem_dedup]
  have hsum : total family ds = (((increases ds).filter (family ·.1)).map (·.2)).sum := by
    rw [total, List.sum, List.foldr_map]
  rw [hsum, increases, List.filter_map, List.map_map, ← List.sum_map_count_dedup_filter_eq_countP]
  exact ((hperm.filter family).map _).sum_eq

theorem total_append (family : Counter → Bool) (ds ds' : List Diagnostic) :
    total family (ds ++ ds') = total family ds + total family ds' := by
  simp only [total_eq_countP, List.flatMap_append, List.countP_append]

theorem total_cons (family : Counter → Bool) (d : Diagnostic) (ds : List Diagnostic) :
    total family (d :: ds) = d.counters.countP family + total family ds := by
  simp only [total_eq_countP, List.flatMap_cons, List.countP_append]

theorem total_perm (family : Counter → Bool) {ds ds' : List Diagnostic} (h : ds.Perm ds') :
    total family ds = total family ds' := by
  rw [total_eq_countP, total_eq_countP]
  exact (h.flatMap_right Diagnostic.counters).countP_eq family

theorem increase_cons (c : Counter) (d : Diagnostic) (ds : List Diagnostic) :
    c.increase (d :: ds) = d.counters.count c + c.increase ds := by
  rw [increase, List.flatMap_cons, List.count_append, increase]

theorem increase_append (c : Counter) (ds ds' : List Diagnostic) :
    c.increase (ds ++ ds') = c.increase ds + c.increase ds' := by
  rw [increase, List.flatMap_append, List.count_append, increase, increase]

/-- What diagnostics raise does not depend on the order in which they are handled. -/
theorem increase_perm {ds ds' : List Diagnostic} (h : ds.Perm ds') (c : Counter) : c.increase ds = c.increase ds' :=
  (h.flatMap_right Diagnostic.counters).count_eq c

/-! ### Families -/

/-- The counter counts events that were handled, or dropped. -/
def countsEvents : Counter → Bool
  | .ignored _ => true
  | .onboarding _ => true
  | .confirmation _ => true
  | .handlerFailures _ => true
  | _ => false

/-- The counter counts outcomes of submissions. -/
def countsOutcomes : Counter → Bool
  | .submissions outcome => outcome ∈ ["succeeded", "failed", "threw"]
  | _ => false

/-- The counter of sequences that could not be read again. -/
def resyncFailed : Counter := .submissions "resync_failed"

end Counter

/-- The diagnostic tells what came of handling the event, and raises one counter of events, once, and no other. -/
structure Diagnostic.Raises (e : Event) (d : Diagnostic) : Prop where
  concerns : d.Concerns e
  counters : ∃ counter, d.counters = [counter] ∧ counter.countsEvents = true

theorem Diagnostic.Concerns.raises {e : Event} {d : Diagnostic} (h : d.Concerns e) : d.Raises e := by
  refine ⟨h, ?_⟩
  cases d with
  | ignored _ _ => exact ⟨_, rfl, rfl⟩
  | handlerFailed _ _ _ => exact ⟨_, rfl, rfl⟩
  | onboarding _ _ => exact ⟨_, rfl, rfl⟩
  | confirmation _ _ => exact ⟨_, rfl, rfl⟩
  | _ => exact absurd h id

/-- A diagnostic that is about no event raises no counter of events. -/
theorem Diagnostic.countP_of_event_eq_none {d : Diagnostic} (h : d.event = none) :
    d.counters.countP Counter.countsEvents = 0 := by
  cases d with
  | ignored _ _ => cases h
  | handlerFailed _ _ _ => cases h
  | onboarding _ _ => cases h
  | confirmation _ _ => cases h
  | submission _ _ => cases h
  | restarting height attempt delay error =>
    refine List.countP_eq_zero.mpr fun c hc => ?_
    rcases List.mem_append.mp hc with hc | hc
    · obtain ⟨bound, -, rfl⟩ := List.mem_map.mp hc
      exact Bool.false_ne_true
    · rcases List.mem_cons.mp hc with rfl | hc
      · exact Bool.false_ne_true
      · rw [List.mem_singleton.mp hc]
        exact Bool.false_ne_true
  | _ => rfl

namespace Counter

/-- Diagnostics about no event raise no counter of events. -/
theorem total_events_of_none {ds : List Diagnostic} (h : ∀ d ∈ ds, d.event = none) : total countsEvents ds = 0 := by
  rw [total_eq_countP, List.countP_flatMap]
  refine List.sum_eq_zero fun n hn => ?_
  obtain ⟨d, hd, rfl⟩ := List.mem_map.mp hn
  exact Diagnostic.countP_of_event_eq_none (h d hd)

/-- Where each diagnostic is about one event, in order, the counters of events are raised once for each event. -/
theorem total_events {es : List Event} {ds : List Diagnostic} (h : List.Forall₂ Diagnostic.Raises es ds) :
    total countsEvents ds = es.length := by
  induction h with
  | nil => rfl
  | @cons e d es ds hd _ ih =>
    obtain ⟨counter, hcounters, hcounts⟩ := hd.counters
    rw [total_cons, ih, hcounters, List.length_cons, Nat.add_comm]
    simp [hcounts]

/-- Such diagnostics raise no other counter. -/
theorem increase_of_raises {es : List Event} {ds : List Diagnostic} (h : List.Forall₂ Diagnostic.Raises es ds)
    {c : Counter} (hc : c.countsEvents = false) : c.increase ds = 0 := by
  induction h with
  | nil => rfl
  | @cons e d es ds hd _ ih =>
    obtain ⟨counter, hcounters, hcounts⟩ := hd.counters
    have hne : c ∉ d.counters := fun hmem => by
      rw [hcounters, List.mem_singleton] at hmem
      rw [hmem, hcounts] at hc
      cases hc
    rw [increase_cons, ih, List.count_eq_zero.mpr hne]

end Counter

end Attestor
