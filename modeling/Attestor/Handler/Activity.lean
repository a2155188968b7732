import Attestor.Shared

/-!
Activities: what a handler does for one event. An activity publishes diagnostics and queues verifications, asks
the chain client and the asset verifier, and ends in one of four ways: it completes, it fails, it panics, or it
hangs, which is no end at all. A collaborator that panics ends the activity in a panic.

`step` performs one effect, so that other tasks can come between; `run` performs all that are left. Running
after a step is running.
-/

namespace Attestor.Handler

open Contract (ScopeRecord Decision Verification)

/-- What is left to do for an event. -/
inductive Activity where
  | done
  | fail (error : Fault)
  | panic (p : Panic)
  /-- Waits for something that never comes. -/
  | hang
  | publish (d : Diagnostic) (rest : Activity)
  | enqueue (v : Verification) (rest : Activity)
  | scopeRecord (contract scope : String) (rest : Except Chain.Failure ScopeRecord → Activity)
  | retrieve (scope : ScopeRecord) (rest : Except Fault Asset → Activity)
  | verify (scope : ScopeRecord) (asset : Asset) (rest : Except Fault Decision → Activity)

/-- How an activity ended. -/
inductive Ending where
  | done
  | failed (error : Fault)
  | panicked (p : Panic)
  deriving DecidableEq, Repr

namespace Activity

variable {χ σ ρ π : Type}

/-- The end of an activity that is over. -/
def ending? : Activity → Option Ending
  | .done => some .done
  | .fail error => some (.failed error)
  | .panic p => some (.panicked p)
  | _ => none

/-- Goes on with an answer; a panic is passed on. -/
def resume {α : Type} (rest : α → Activity) : Answer α → Activity
  | .value a => rest a
  | .panic p => .panic p

/-- Performs one effect. An activity that is over, or hangs, stays as it is. -/
def step (c : Collaborators χ σ ρ π) (s : Shared χ σ π) : Activity → Activity × Shared χ σ π
  | .publish d rest => (rest, s.publish d)
  | .enqueue v rest => (rest, s.enqueue v)
  | .scopeRecord contract scope rest =>
    match c.chain.scopeRecord contract scope s.chain with
    | (answer, chain) => (resume rest answer, { s with chain })
  | .retrieve scope rest =>
    match c.assets.retrieve scope s.assets with
    | (answer, assets) => (resume rest answer, { s with assets })
  | .verify scope asset rest =>
    match c.assets.verify scope asset s.assets with
    | (answer, assets) => (resume rest answer, { s with assets })
  | a => (a, s)

/-- Performs all effects that are left; an activity that hangs has no end. -/
def run (c : Collaborators χ σ ρ π) : Activity → Shared χ σ π → Option Ending × Shared χ σ π
  | .done, s => (some .done, s)
  | .fail error, s => (some (.failed error), s)
  | .panic p, s => (some (.panicked p), s)
  | .hang, s => (none, s)
  | .publish d rest, s => rest.run c (s.publish d)
  | .enqueue v rest, s => rest.run c (s.enqueue v)
  | .scopeRecord contract scope rest, s =>
    match c.chain.scopeRecord contract scope s.chain with
    | (.value a, chain) => (rest a).run c { s with chain }
    | (.panic p, chain) => (some (.panicked p), { s with chain })
  | .retrieve scope rest, s =>
    match c.assets.retrieve scope s.assets with
    | (.value a, assets) => (rest a).run c { s with assets }
    | (.panic p, assets) => (some (.panicked p), { s with assets })
  | .verify scope asset rest, s =>
    match c.assets.verify scope asset s.assets with
    | (.value a, assets) => (rest a).run c { s with assets }
    | (.panic p, assets) => (some (.panicked p), { s with assets })

/-- Running after a step is running. -/
theorem run_step (c : Collaborators χ σ ρ π) (a : Activity) (s : Shared χ σ π) :
    (a.step c s).1.run c (a.step c s).2 = a.run c s := by
  cases a with
  | scopeRecord contract scope rest =>
    rw [step, run]
    rcases c.chain.scopeRecord contract scope s.chain with ⟨_ | _, _⟩ <;> rfl
  | retrieve scope rest =>
    rw [step, run]
    rcases c.assets.retrieve scope s.assets with ⟨_ | _, _⟩ <;> rfl
  | verify scope asset rest =>
    rw [step, run]
    rcases c.assets.verify scope asset s.assets with ⟨_ | _, _⟩ <;> rfl
  | _ => rfl

end Activity

end Attestor.Handler
