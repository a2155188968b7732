import Attestor.Proofs.Calls
import Attestor.Proofs.Routings

/-!
Engines that rest: there is no run, and nobody but the engine has a consumer loop. Then a move does no more than have
the effects that it says, one after the other (`apply_performed`), whatever was left under way before. So over a
ledger nothing is broadcast, delivered or cached, no stream is opened, and the two queues grow by what these effects
queue and publish (`History.silent`).
-/

namespace Attestor

open Chain (Ledger)
open Contract (Verification)
open Handler (Effect Performed)

variable {χ σ ρ π : Type}

/-! ### Queues -/

/-- These items were added behind the others, and none was taken. -/
structure Queue.Grows {α : Type} (q q' : Queue α) (new : List α) : Prop where
  history : q'.history = q.history
  items : q'.items = q.items ++ new

namespace Queue.Grows

variable {α : Type} {q q' q'' : Queue α} {new new' : List α}

theorem refl (q : Queue α) : q.Grows q [] := ⟨rfl, (List.append_nil _).symm⟩

theorem trans (h : q.Grows q' new) (h' : q'.Grows q'' new') : q.Grows q'' (new ++ new') :=
  ⟨h'.history.trans h.history, by rw [h'.items, h.items, List.append_assoc]⟩

theorem of_extends (h : q.Extends q') (hlog : q'.log = q.log ++ new) : q.Grows q' new := by
  refine ⟨h.history, ?_⟩
  rw [← q'.history_append_items, h.history, ← q.history_append_items, List.append_assoc] at hlog
  exact List.append_cancel_left hlog

end Queue.Grows

/-! ### Effects -/

/-- Effects do not ask the source of blocks. -/
theorem Handler.Effect.Turns.source {c : Collaborators χ σ ρ π} {s s' : Shared χ σ π} {x : Effect}
    (h : x.Turns c s s') : s'.source = s.source := by
  cases x with
  | publish d =>
    rw [show s' = s.publish d from h]
    rfl
  | enqueue v =>
    rw [show s' = s.enqueue v from h]
    rfl
  | scopeRecord contract scope answer =>
    obtain ⟨chain, -, rfl⟩ := h
    rfl
  | retrieve scope answer =>
    obtain ⟨assets, -, rfl⟩ := h
    rfl
  | verify scope asset answer =>
    obtain ⟨assets, -, rfl⟩ := h
    rfl

namespace Handler.Performed

variable {c : Collaborators χ σ ρ π} {s s' : Shared χ σ π} {xs : List Effect}

theorem adds (h : Performed c s xs s') : Adds s s' := by
  induction h with
  | nil => exact .refl _
  | cons hx _ ih => exact (Adds.turns hx).trans ih

theorem source (h : Performed c s xs s') : s'.source = s.source := by
  induction h with
  | nil => rfl
  | cons hx _ ih => rw [ih, hx.source]

/-- Over a ledger, effects broadcast nothing. -/
theorem calm {c : Collaborators Ledger σ ρ π} (hc : c.chain = Ledger.client) {s s' : Shared Ledger σ π}
    (h : Performed c s xs s') : Calm s s' := by
  induction h with
  | nil => exact .refl _
  | cons hx _ ih => exact (Calm.respected hc).trans ((Calm.respected hc).turns hx) ih

end Handler.Performed

namespace Routing.Agenda

/-- The effects of the step ahead. -/
def effects (r : Router) (c : Collaborators χ σ ρ π) (s : Shared χ σ π) : Agenda → List Effect
  | ⟨some d, _⟩ =>
    match d.activity.ending? with
    | some ending => (reports d.event d.kind ending).map .publish
    | none => (d.activity.effect? c s).toList
  | ⟨none, e :: _⟩ =>
    match r.direct e with
    | .ignore _ reason => [.publish (.ignored e reason)]
    | .handle _ _ => []
  | ⟨none, []⟩ => []

variable {r : Router} {c : Collaborators χ σ ρ π} {a a' : Agenda} {s s' : Shared χ σ π}

/-- A step has the effects that are ahead. -/
theorem step_performed (h : a.step r c s = .moved (a', s')) : Performed c s (a.effects r c s) s' := by
  cases step_change h with
  | @ended d waiting ending hending =>
    simp only [effects, hending]
    exact report_performed c d.event d.kind ending s
  | @acted d waiting x b s' hx hafter hturns =>
    have hending : d.activity.ending? = none := by
      cases hover : d.activity.ending? with
      | none => rfl
      | some ending =>
        rw [Handler.Activity.effect?_of_ending hover] at hx
        cases hx
    simp only [effects, hending, hx]
    exact .cons hturns .nil
  | ignored hdirect =>
    simp only [effects, hdirect]
    exact .cons rfl .nil
  | called hdirect hcall =>
    simp only [effects, hdirect]
    exact .nil

/-- An agenda that cannot make a step has no effect ahead. -/
theorem effects_of_not_moved (h : ∀ next, a.step r c s ≠ .moved next) : a.effects r c s = [] := by
  obtain ⟨current, waiting⟩ := a
  cases current with
  | some d =>
    simp only [step, handle] at h
    split at h
    next => exact absurd rfl (h _)
    next hending =>
      split at h
      next hhang => simp only [effects, hhang]; rfl
      next => exact absurd rfl (h _)
  | none =>
    cases waiting with
    | nil => rfl
    | cons e waiting =>
      simp only [step, turn] at h
      split at h
      next => exact absurd rfl (h _)
      next hdirect => simp only [effects, hdirect]

end Routing.Agenda

namespace Service

/-! ### Moves while there is no run -/

/-- The move begins a run where there is none. -/
def Move.starts : Move → Bool
  | .start _ => true
  | .restart _ => true
  | _ => false

theorem Move.of_starts {m : Move} (h : m.starts = true) : ∃ height, m = .start height ∨ m = .restart height := by
  cases m with
  | start height => exact ⟨height, .inl rfl⟩
  | restart height => exact ⟨height, .inr rfl⟩
  | _ => cases h

/-- The effects of a move on the state that tasks share, where there is no run. -/
def effects (S : Service χ σ ρ π) (e : Engine χ σ ρ π) : Move → List Effect
  | .publish d => [.publish d]
  | .replay hash =>
    match (S.collaborators.chain.events hash e.shared.chain).1 with
    | .error failure => [.publish (.replayFailed hash failure.message)]
    | .ok _ => []
  | .replaying i =>
    match e.replays[i]? with
    | some agenda => agenda.effects S.driver.router S.collaborators e.shared
    | none => []
  | _ => []

section

variable {S : Service Ledger σ ρ π} {e : Engine Ledger σ ρ π}

theorem eventsOf_performed (hc : S.collaborators.chain = Ledger.client) (hash : String) :
    Performed S.collaborators e.shared (S.effects e (.replay hash)) (S.eventsOf hash e.shared).2 := by
  simp only [effects, eventsOf, hc, Ledger.client]
  cases e.shared.chain.events hash with
  | error failure => exact .cons rfl .nil
  | ok events => exact .nil

theorem replayStep_performed (i : Nat) :
    Performed S.collaborators e.shared (S.effects e (.replaying i)) (S.apply e (.replaying i)).shared ∧
      (S.apply e (.replaying i)).delivered = e.delivered := by
  simp only [effects, apply, replayStep]
  cases e.replays[i]? with
  | none => exact ⟨.nil, rfl⟩
  | some agenda =>
    simp only [Option.bind_eq_bind, Option.bind_some]
    cases hstep : agenda.step S.driver.router S.collaborators e.shared with
    | moved next => exact ⟨Routing.Agenda.step_performed hstep, rfl⟩
    | _ =>
      have hnot : ∀ next, agenda.step S.driver.router S.collaborators e.shared ≠ .moved next := by
        intro next hmoved
        rw [hstep] at hmoved
        cases hmoved
      rw [Routing.Agenda.effects_of_not_moved hnot]
      exact ⟨.nil, rfl⟩

/-- While there is no run, a move has its effects, and hands nothing over. -/
theorem apply_performed (hc : S.collaborators.chain = Ledger.client) (hrun : e.standing.run? = none)
    (hextras : e.extras = []) {m : Move} (hm : m.starts = false) :
    Performed S.collaborators e.shared (S.effects e m) (S.apply e m).shared ∧
      (S.apply e m).delivered = e.delivered := by
  have hstill : S.apply e m = e → S.effects e m = [] →
      Performed S.collaborators e.shared (S.effects e m) (S.apply e m).shared ∧
        (S.apply e m).delivered = e.delivered := by
    intro he hnothing
    rw [he, hnothing]
    exact ⟨.nil, rfl⟩
  have hnone : e.lifecycle.run? = none := Option.map_eq_none_iff.mp ((Engine.runId_eq e).trans hrun)
  cases m with
  | stream => exact hstill (by simp [apply, streamStep, hnone]) rfl
  | submitter => exact hstill (by simp [apply, submitterStep, hnone]) rfl
  | delivery => exact hstill (by simp [apply, deliveryStep, hnone]) rfl
  | control =>
    refine hstill ?_ rfl
    unfold apply controlStep
    cases hl : e.lifecycle with
    | closing run joining deadline next =>
      rw [hl] at hnone
      cases hnone
    | _ => rfl
  | replaying i => exact replayStep_performed i
  | consuming i => exact hstill (by simp [apply, extraStep, hextras]) rfl
  | tick ms => exact ⟨.nil, rfl⟩
  | start height => cases hm
  | stop => exact hstill (apply_stop_of_resting hrun) rfl
  | restart height => cases hm
  | replay hash =>
    have hperformed := eventsOf_performed (e := e) hc hash
    simp only [apply, beginReplay]
    split
    all_goals
      next h =>
        rw [h] at hperformed
        exact ⟨hperformed, rfl⟩
  | publish d => exact ⟨.cons rfl .nil, rfl⟩
  | consume => exact ⟨.nil, rfl⟩
  | dismiss i => exact ⟨.nil, rfl⟩

end

/-! ### Consumer loops beside the engine's -/

/-- The engine keeps its submitter to itself: nobody else calls a consumer loop on it. -/
def History.Alone {S : Service χ σ ρ π} (H : S.History) : Prop := ∀ i, H.move i ≠ some .consume

/-- Consumer loops beside that of the run have to be called. -/
theorem extras_change {S : Service χ σ ρ π} {e e' : Engine χ σ ρ π} {m : Move} (h : Change S e m e')
    (hm : m ≠ .consume) (hnil : e.extras = []) : e'.extras = [] := by
  cases h with
  | streamExited hr ht hx => rw [extras_endStream, hnil]
  | streamCrashed hr ht hx hs => rw [extras_endStream, hnil]
  | @deliveryJoined run deadline next hl hj => cases next <;> exact hnil
  | @aborted run joining deadline next hl hj hd =>
    cases joining with
    | stream => rw [abort, extras_endStream, hnil]
    | _ => exact hnil
  | extraMoved hi hl =>
    rw [hnil] at hi
    cases hi
  | called => exact absurd rfl hm
  | dismissed => simp only [hnil, List.modify_nil]
  | _ => exact hnil

namespace History

section

variable {S : Service χ σ ρ π} {H : S.History} {shared : Shared χ σ π}

theorem extras_nil (hbegin : H.engine 0 = .initial shared) (halone : H.Alone) (i : Nat) :
    (H.engine i).extras = [] := by
  induction i with
  | zero =>
    rw [hbegin]
    rfl
  | succ i ih =>
    rcases H.change i with ⟨m, hm, hchange⟩ | ⟨-, chain, source, assets, he⟩
    · exact extras_change hchange (fun heq => halone i (by rw [hm, heq])) ih
    · rw [he]
      exact ih

end

/-! ### From one moment to another -/

variable {S : Service Ledger Stream.Script ρ π}

/-- From outside, neither the record of broadcasts nor that of the source's starts is changed. -/
def Honest (H : S.History) : Prop :=
  ∀ i, H.move i = none → (H.past (i + 1)).chain.broadcasts = (H.past i).chain.broadcasts ∧
    (H.past (i + 1)).source.starts = (H.past i).source.starts

/-- No run is begun. -/
def Unstarted (H : S.History) (n k : Nat) : Prop := ∀ j, n ≤ j → j < k → (H.move j).any Move.starts = false

variable (H : S.History)

/-- The effects of what happens at a moment. -/
def effects (i : Nat) : List Effect := (H.move i).elim [] (S.effects (H.engine i))

/-- The effects of what happens from one moment until another. -/
def effectsIn (n k : Nat) : List Effect := (List.range' n (k - n)).flatMap H.effects

/-- From one moment until another nothing is broadcast, delivered, opened or cached, and the queues grow by what is
published. -/
structure Silent (n k : Nat) : Prop where
  broadcasts : (H.past k).chain.broadcasts = (H.past n).chain.broadcasts
  delivered : (H.engine k).delivered = (H.engine n).delivered
  starts : (H.past k).source.starts = (H.past n).source.starts
  sequence : (H.past k).sequence = (H.past n).sequence
  verifications : (H.past n).outbound.Grows (H.past k).outbound ((H.effectsIn n k).flatMap Effect.queued)
  diagnostics : (H.past n).diagnostics.Grows (H.past k).diagnostics ((H.effectsIn n k).flatMap Effect.told)

variable {H} {n k : Nat} {m : Move} {height : Option Chain.Height} {shared : Shared Ledger Stream.Script π}
  {chain : Ledger} {source : Stream.Script} {assets : π}

theorem effectsIn_succ (h : n ≤ k) : H.effectsIn n (k + 1) = H.effectsIn n k ++ H.effects k := by
  rw [effectsIn, Nat.succ_sub h, List.range'_concat, List.flatMap_append, List.flatMap_singleton, Nat.one_mul,
    Nat.add_sub_cancel' h]
  rfl

/-- A start begins a run, and changes nothing of what tasks share. -/
theorem spawned (hrest : (H.engine n).standing.run? = none) (hm : H.move n = some m)
    (hcall : m = .start height ∨ m = .restart height) : H.engine (n + 1) = (H.engine n).spawn height := by
  rw [H.applied hm, apply_of_resting hrest hcall]

/-- Nothing begins a run, so there is none. -/
theorem rests (hrest : (H.engine n).standing.run? = none) (hnk : n ≤ k) (hidle : H.Unstarted n k) :
    (H.engine k).standing.run? = none := by
  induction hnk with
  | refl => exact hrest
  | @step k hnk ih =>
    have hbefore := ih fun j hj hjk => hidle j hj (Nat.lt_succ_of_lt hjk)
    rcases resting_next hbefore with hs | ⟨m, height, hm, hcall, -⟩
    · rw [hs]
      exact hbefore
    · have hnot := hidle k hnk (Nat.lt_succ_self k)
      rw [hm] at hnot
      rcases hcall with rfl | rfl <;> cases hnot

theorem effectsIn_self (n : Nat) : H.effectsIn n n = [] := by
  rw [effectsIn, Nat.sub_self]
  rfl

theorem Silent.refl (n : Nat) : H.Silent n n where
  broadcasts := rfl
  delivered := rfl
  starts := rfl
  sequence := rfl
  verifications := by
    rw [effectsIn_self]
    exact .refl _
  diagnostics := by
    rw [effectsIn_self]
    exact .refl _

/-- While there is no run, a moment at which none is begun is silent. -/
theorem Silent.next (hc : S.collaborators.chain = Ledger.client) (hbegin : H.engine 0 = .initial shared)
    (halone : H.Alone) (hhonest : H.Honest) (hnk : n ≤ k) (h : H.Silent n k)
    (hrest : (H.engine k).standing.run? = none) (hidle : (H.move k).any Move.starts = false) :
    H.Silent n (k + 1) := by
  cases hm : H.move k with
  | none =>
    obtain ⟨hbroadcasts, hstarts⟩ := hhonest k hm
    obtain ⟨chain, source, assets, he⟩ := H.unmoved hm
    have hnothing : H.effects k = [] := by rw [effects, hm]; rfl
    refine ⟨hbroadcasts.trans h.broadcasts, ?_, hstarts.trans h.starts, ?_, ?_, ?_⟩
    · rw [he]
      exact h.delivered
    · rw [past, he]
      exact h.sequence
    · rw [past, past, he, effectsIn_succ hnk, hnothing, List.append_nil]
      exact h.verifications
    · rw [past, past, he, effectsIn_succ hnk, hnothing, List.append_nil]
      exact h.diagnostics
  | some m =>
    rw [hm] at hidle
    have heffects : H.effects k = S.effects (H.engine k) m := by rw [effects, hm]; rfl
    obtain ⟨hperformed, hdelivered⟩ := apply_performed hc hrest (extras_nil hbegin halone k) hidle
    rw [← H.applied hm] at hperformed hdelivered
    rw [← heffects] at hperformed
    refine
      { broadcasts := (hperformed.calm hc).broadcasts.trans h.broadcasts
        delivered := hdelivered.trans h.delivered
        starts := (congrArg Stream.Script.starts hperformed.source).trans h.starts
        sequence := hperformed.adds.sequence.trans h.sequence
        verifications := ?_
        diagnostics := ?_ }
    · rw [effectsIn_succ hnk, List.flatMap_append]
      exact h.verifications.trans (.of_extends hperformed.adds.outbound hperformed.outbound)
    · rw [effectsIn_succ hnk, List.flatMap_append]
      exact h.diagnostics.trans (.of_extends hperformed.adds.diagnostics hperformed.diagnostics)

/-- As long as nothing begins a run, there is silence. -/
theorem silent (hc : S.collaborators.chain = Ledger.client) (hbegin : H.engine 0 = .initial shared)
    (halone : H.Alone) (hhonest : H.Honest) (hrest : (H.engine n).standing.run? = none) (hnk : n ≤ k)
    (hidle : H.Unstarted n k) : H.Silent n k := by
  induction hnk with
  | refl => exact .refl n
  | @step k hnk ih =>
    have hbefore : H.Unstarted n k := fun j hj hjk => hidle j hj (Nat.lt_succ_of_lt hjk)
    exact (ih hbefore).next hc hbegin halone hhonest hnk (rests hrest hnk hbefore) (hidle k hnk (Nat.lt_succ_self k))

/-- No sequence is cached while there is no run. -/
theorem unloaded (hc : S.collaborators.chain = Ledger.client)
    (hbegin : H.engine 0 = .initial (.initial chain source assets)) (halone : H.Alone) (hhonest : H.Honest) (k : Nat)
    (hrest : (H.engine k).standing.run? = none) : (H.past k).sequence = none := by
  induction k with
  | zero =>
    rw [past, hbegin]
    rfl
  | succ k ih =>
    cases hbefore : (H.engine k).standing.run? with
    | none =>
      have hidle : (H.move k).any Move.starts = false := by
        refine Bool.eq_false_iff.mpr fun hstarts => ?_
        cases hm : H.move k with
        | none =>
          rw [hm] at hstarts
          cases hstarts
        | some m =>
          rw [hm] at hstarts
          obtain ⟨height, hcall⟩ := Move.of_starts hstarts
          rw [spawned hbefore hm hcall] at hrest
          cases hrest
      exact ((Silent.refl k).next hc hbegin halone hhonest (Nat.le_refl k) hbefore hidle).sequence.trans (ih hbefore)
    | some id =>
      -- the run has just ended
      have hends : H.Ends k id := ⟨(Engine.runId_eq _).trans hbefore, by rw [Engine.runId_eq, hrest]; simp⟩
      obtain ⟨run, deadline, next, -, -, -, -, he⟩ := hends.finished
      rw [past, he]
      cases next <;> rfl

/-- When a stop has returned there is no run. -/
theorem Completes.rests {i : Nat} (h : H.Completes .stop i n) : (H.engine n).standing.run? = none := by
  by_cases hrun : (H.engine i).runId = none
  · have hnext : H.engine (i + 1) = H.engine i := by
      rw [h.applied, apply_stop_of_resting ((Engine.runId_eq _).symm.trans hrun)]
    obtain rfl := h.at_once (by rw [hnext]; exact h.free)
    rw [hnext, ← Engine.runId_eq, hrun]
  · rw [Engine.standing, h.stops hrun]
    rfl

end History

end Service

end Attestor
