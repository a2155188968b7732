import Attestor.Proofs.Moves
import Attestor.Proofs.Submissions

/-!
The consumer loops of an engine: that of its run, and those beside it. They work on one submitter, and only one of
them is active at a time.
-/

namespace Attestor.Service

open Submission (Loop)

variable {χ σ ρ π : Type} {S : Service χ σ ρ π} {e e' : Engine χ σ ρ π}

/-- The consumer loops of an engine: that of its run, and those beside it. -/
def loops (e : Engine χ σ ρ π) : List Loop :=
  (e.lifecycle.run?.map (·.loop)).toList ++ e.extras.map (·.loop)

theorem loops_of_run (run : Run ρ) (h : e.lifecycle.run? = some run) :
    loops e = [] ++ run.loop :: e.extras.map (·.loop) := by
  rw [loops, h]
  rfl

theorem loops_of_none (h : e.lifecycle.run? = none) : loops e = [] ++ e.extras.map (·.loop) := by
  rw [loops, h]
  rfl

/-- The loops of an engine around another one. -/
theorem loops_of_extra {i : Nat} {extra : Extra} (h : e.extras[i]? = some extra) :
    ∃ before after, loops e = before ++ extra.loop :: after ∧
      ∀ (shared : Shared χ σ π) loop, loops { e with shared, extras := e.extras.set i { extra with loop } } =
        before ++ loop :: after := by
  obtain ⟨hi, hget⟩ := List.getElem?_eq_some_iff.mp h
  refine ⟨(e.lifecycle.run?.map (·.loop)).toList ++ (e.extras.take i).map (·.loop),
    (e.extras.drop (i + 1)).map (·.loop), ?_, fun shared loop => ?_⟩
  · have hsplit : e.extras = e.extras.take i ++ extra :: e.extras.drop (i + 1) := by
      rw [← hget, ← List.drop_eq_getElem_cons hi, List.take_append_drop]
    rw [loops, List.append_assoc]
    congr 1
    rw [← List.map_cons, ← List.map_append, ← hsplit]
  · rw [loops, List.append_assoc]
    congr 1
    show (e.extras.set i _).map _ = _
    rw [List.set_eq_take_append_cons_drop, if_pos hi, List.map_append, List.map_cons]

theorem loops_congr (hrun : e'.lifecycle.run?.map (·.loop) = e.lifecycle.run?.map (·.loop))
    (hextras : e'.extras.map (·.loop) = e.extras.map (·.loop)) : loops e' = loops e := by
  rw [loops, loops, hrun, hextras]

theorem Lifecycle.loop_mapRun (l : Lifecycle ρ) {f : Run ρ → Run ρ} (hf : ∀ run, (f run).loop = run.loop) :
    (l.mapRun f).run?.map (·.loop) = l.run?.map (·.loop) := by
  rw [run?_mapRun]
  cases l.run? with
  | none => rfl
  | some run => exact congrArg some (hf run)

/-- A life cycle with another run closes the other run as the first one. -/
theorem Lifecycle.of_mapRun_closing {l : Lifecycle ρ} {f : Run ρ → Run ρ} {run : Run ρ} {joining : Joining}
    {deadline : Nat} {next : Afterwards} (h : l.mapRun f = .closing run joining deadline next) :
    ∃ before, l = .closing before joining deadline next ∧ run = f before := by
  cases l with
  | closing before joining' deadline' next' =>
    cases h
    exact ⟨before, rfl, rfl⟩
  | _ => cases h

theorem loops_dismiss (extras : List Extra) (i : Nat) :
    (extras.modify i fun x => { x with cancelled := true }).map (·.loop) = extras.map (·.loop) := by
  refine List.ext_getElem? fun j => ?_
  rw [List.getElem?_map, List.getElem?_map, List.getElem?_modify]
  cases extras[j]? with
  | none => rfl
  | some extra => simp only [Option.map_some]; split <;> rfl

end Attestor.Service
