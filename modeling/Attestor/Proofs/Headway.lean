import Attestor.Proofs.Deliveries
import Attestor.Proofs.Renewal

/-!
Headway of a run that no call closes. Each turn of its loop brings a submission closer to its end or takes the next
verification (`Loop.turned_cases`), and each turn of its delivery hands a diagnostic over. So a run that has been
given enough turns has taken all that waited: `Consuming` and `Delivering` count the turns, and no other move takes
from them.
-/

namespace Attestor

open Submission (Loop)

variable {σ ρ π : Type}

/-! ### Turns of the consumer loop -/

namespace Submission

/-- How many steps at most bring a submission to its end, and the loop back to the queue. -/
def left (x : Submission) : Nat :=
  match x.stage with
  | .begun => 7
  | .numbered _ => 6
  | .signed _ => 5
  | .answered _ => 4
  | .told _ => 3
  | .unsynced _ _ => 2
  | .over _ => 1

theorem Change.left {χ : Type} {b : Submitter} {client : Chain.Client χ} {x x' : Submission} {s s' : Shared χ σ π}
    (h : Change b client x s x' s') : x'.left < x.left := by
  cases h with
  | @told answer outcome hx ho =>
    cases hsuccess : outcome.isSuccess <;> simp [Submission.left, hx]
  | _ hx => simp [Submission.left, hx]

namespace Loop

/-- How many steps at most bring a loop to the queue. -/
def left : Loop → Nat
  | .called => 2
  | .leasing => 1
  | .receiving => 0
  | .submitting x => x.left
  | .over => 0

variable {χ : Type} {l : Loop} {s : Shared χ σ π}

/-- The state that a loop can make of itself and of what is shared: that after a step, if it can make one. -/
def turned (b : Submitter) (client : Chain.Client χ) (l : Loop) (s : Shared χ σ π) : Loop × Shared χ σ π :=
  (l.step b client false false s).next?.getD (l, s)

/-- A loop that goes on makes a step, unless nothing waits; and what it has taken makes up for its steps. -/
theorem turned_cases (b : Submitter) (client : Chain.Client χ) (hover : l ≠ .over)
    (hfree : l = .called → s.submitting = false) :
    (s.outbound.items = [] ∧ l.turned b client s = (l, s)) ∨ ((l.turned b client s).1 ≠ .over ∧
      s.outbound.history.length ≤ (l.turned b client s).2.outbound.history.length ∧
      (l.turned b client s).1.left + 8 * s.outbound.history.length <
        l.left + 8 * (l.turned b client s).2.outbound.history.length) := by
  unfold turned
  cases l with
  | called =>
    simp only [step, hfree rfl]
    exact .inr ⟨Loop.noConfusion, Nat.le_refl _, by simp [Progress.next?, left]⟩
  | leasing => exact .inr ⟨Loop.noConfusion, Nat.le_refl _, by simp [step, Progress.next?, left]⟩
  | receiving =>
    cases hq : s.outbound.next? with
    | none =>
      simp only [step, hq]
      exact .inl ⟨Queue.next?_eq_none_iff.mp hq, rfl⟩
    | some next =>
      obtain ⟨v, outbound⟩ := next
      have htaken : outbound.history.length = s.outbound.history.length + 1 := by
        rw [(Queue.of_next? hq).2.2, List.length_append, List.length_singleton]
      simp only [step, hq, Bool.false_eq_true, if_false, Progress.next?, Option.getD_some]
      refine .inr ⟨Loop.noConfusion, Nat.le_of_lt htaken.ge, ?_⟩
      simp only [left, Submission.left, Submission.begin]
      omega
  | submitting x =>
    cases hx : x.outcome? with
    | some outcome =>
      simp only [step, hx]
      refine .inr ⟨Loop.noConfusion, Nat.le_refl _, ?_⟩
      obtain ⟨v, stage⟩ := x
      cases stage with
      | «over» outcome => simp [Progress.next?, left, Submission.left]
      | _ => cases hx
    | none =>
      have hchange := Submission.step_change b client s hx
      simp only [step, hx, Progress.next?, Option.getD_some]
      rw [hchange.outbound]
      refine .inr ⟨Loop.noConfusion, Nat.le_refl _, ?_⟩
      exact Nat.add_lt_add_right hchange.left _
  | «over» => exact absurd rfl hover

/-- The loop goes on. Since it was called, with `first` items taken before, it had a number of turns: it has taken `all`
items, or as many as its turns allow for. -/
structure Advances (first all turns : Nat) (l : Loop) (s : Shared χ σ π) : Prop where
  goesOn : l ≠ .over
  bound : all ≤ s.outbound.history.length ∨ turns + l.left + 8 * first ≤ 2 + 8 * s.outbound.history.length

theorem Advances.turned {first all turns : Nat} (h : Advances first all turns l s) (b : Submitter)
    (client : Chain.Client χ) (hfree : l = .called → s.submitting = false) (hall : all ≤ s.outbound.log.length) :
    Advances first all (turns + 1) (l.turned b client s).1 (l.turned b client s).2 := by
  rcases turned_cases b client h.goesOn hfree with ⟨hitems, hsame⟩ | ⟨hover, htaken, hleft⟩
  · -- nothing waits, so everything was taken
    rw [hsame]
    refine ⟨h.goesOn, .inl ?_⟩
    rw [← s.outbound.history_append_items, hitems, List.append_nil] at hall
    exact hall
  · refine ⟨hover, ?_⟩
    have hbound := h.bound
    omega

end Loop

end Submission

namespace Service

variable {χ : Type} {S : Service χ σ ρ π} {e e' : Engine χ σ ρ π} {m : Move} {first all turns : Nat}

/-! ### The loop of a run -/

/-- A run is cancelled only when it is closed. -/
theorem cancelled_change (h : Change S e m e') {run run' : Run ρ} (hl : e.lifecycle = .running run)
    (hl' : e'.lifecycle = .running run') : run'.cancelled = run.cancelled := by
  have hmap : ∀ {f : Run ρ → Run ρ}, e.lifecycle.mapRun f = .running run' →
      (∀ run, (f run).cancelled = run.cancelled) → run'.cancelled = run.cancelled := by
    intro f h hf
    rw [hl] at h
    cases h
    exact hf run
  have hsame : e.lifecycle = .running run' → run'.cancelled = run.cancelled := by
    intro h
    rw [hl] at h
    cases h
    rfl
  cases h with
  | streamMoved hr ht hx hs => exact hmap hl' fun _ => rfl
  | streamExited hr ht hx =>
    rw [lifecycle_endStream] at hl'
    exact hmap hl' fun _ => rfl
  | streamCrashed hr ht hx hs =>
    rw [lifecycle_endStream] at hl'
    exact hmap hl' fun _ => rfl
  | loopMoved hr hl => exact hmap hl' fun _ => rfl
  | deliveryMoved hr hd => exact hmap hl' fun _ => rfl
  | streamJoined hclosing hj => rw [hl] at hclosing; cases hclosing
  | loopJoined hclosing hj => rw [hl] at hclosing; cases hclosing
  | deliveryJoined hclosing hj => rw [hl] at hclosing; cases hclosing
  | aborted hclosing hj hd => rw [hl] at hclosing; cases hclosing
  | spawned hrest hm => rcases hrest with hrest | hrest <;> rw [hl] at hrest <;> cases hrest
  | replaced hl hf => cases hl'
  | restarted hl => cases hl'
  | stopped hl => cases hl'
  | _ => exact hsame hl'

/-- A turn of the loop of a run. -/
theorem apply_submitter {run : Run ρ} (hl : e.lifecycle = .running run) (hcancelled : run.cancelled = false) :
    (S.apply e .submitter).shared = (run.loop.turned S.submitter S.collaborators.chain e.shared).2 ∧
      (S.apply e .submitter).lifecycle =
        .running { run with loop := (run.loop.turned S.submitter S.collaborators.chain e.shared).1 } := by
  simp only [apply, submitterStep, hl, Lifecycle.run?, Option.bind_eq_bind, Option.bind_some, hcancelled, Loop.turned]
  cases (run.loop.step S.submitter S.collaborators.chain false false e.shared).next? with
  | none => exact ⟨rfl, hl.trans (by rw [← hcancelled]; rfl)⟩
  | some next => exact ⟨rfl, by rw [← hcancelled]; rfl⟩

/-- The run goes on, and nothing has cancelled its loop. Since the run was begun, with `first` verifications taken before,
the loop had a number of turns: it has taken `all`, or as many as its turns allow for. -/
def Consuming (first all turns : Nat) (e : Engine χ σ ρ π) : Prop :=
  ∃ run, e.lifecycle = .running run ∧ run.cancelled = false ∧ Loop.Advances first all turns run.loop e.shared

theorem Consuming.turned (h : Consuming first all turns e)
    (hfree : loopOf e .submitter = some .called → e.shared.submitting = false)
    (hall : all ≤ e.shared.outbound.log.length) : Consuming first all (turns + 1) (S.apply e .submitter) := by
  obtain ⟨run, hl, hcancelled, hadvances⟩ := h
  obtain ⟨hshared, hlifecycle⟩ := apply_submitter (S := S) hl hcancelled
  refine ⟨_, hlifecycle, hcancelled, ?_⟩
  rw [hshared]
  exact hadvances.turned S.submitter S.collaborators.chain (fun hcalled => hfree (by rw [loopOf, hl, ← hcalled]; rfl)) hall

/-- While the run goes on, what does not concern its loop takes nothing from it. -/
theorem Consuming.kept {run' : Run ρ} (h : Consuming first all turns e) (hl' : e'.lifecycle = .running run')
    (hcancelled : ∀ run, e.lifecycle = .running run → run'.cancelled = run.cancelled)
    (hloop : loopOf e' .submitter = loopOf e .submitter)
    (hhistory : e'.shared.outbound.history = e.shared.outbound.history) : Consuming first all turns e' := by
  obtain ⟨run, hl, hfalse, hadvances⟩ := h
  have hsame : run'.loop = run.loop := by
    rw [loopOf, loopOf, hl, hl'] at hloop
    exact Option.some.inj hloop
  refine ⟨run', hl', (hcancelled run hl).trans hfalse, hsame ▸ hadvances.goesOn, ?_⟩
  rw [hhistory, hsame]
  exact hadvances.bound

/-! ### The delivery of a run -/

/-- A step of the delivery of a run, while it receives and the consumer returns. -/
theorem apply_delivery {run : Run ρ} (hl : e.lifecycle = .running run) (hdraining : run.draining = false)
    (hreceiving : run.delivery = .receiving) (hreturns : ∀ ds d, S.consumer.reply ds d ≠ .hangs) :
    S.apply e .delivery =
      match e.shared.diagnostics.next? with
      | some (d, diagnostics) =>
        { e with
          shared := { e.shared with diagnostics }
          delivered := e.delivered ++ [d]
          lifecycle := .running run }
      | none => e := by
  simp only [apply, deliveryStep, hl, Lifecycle.run?, Option.bind_eq_bind, Option.bind_some, hreceiving, hdraining,
    Delivery.step, Delivery.hand]
  cases e.shared.diagnostics.next? with
  | none => rfl
  | some next =>
    simp only [hreturns, if_false, Progress.next?, Lifecycle.mapRun]
    rw [← hreceiving]
    rfl

/-- Only a turn of the delivery changes how far it is, while the run goes on. -/
theorem delivery_change (h : Change S e m e') (hm : m ≠ .delivery) {run run' : Run ρ} (hl : e.lifecycle = .running run)
    (hl' : e'.lifecycle = .running run') (hreceiving : run.delivery = .receiving) : run'.delivery = .receiving := by
  rcases run_change h (by rw [hl']; rfl) with ⟨before, hbefore, hchange⟩ | ⟨height, rfl, -⟩
  · rw [hl] at hbefore
    obtain rfl : run = before := Option.some.inj hbefore
    cases hchange with
    | kept hid hstream hloop hdelivery hreports => exact hdelivery.trans hreceiving
    | deliveryMoved hd hreports => exact absurd rfl hm
    | aborted haborts => simp [aborts, hl] at haborts
    | _ => exact hreceiving
  · rfl

/-- The run goes on, and its delivery receives. Since the run was begun, with `first` diagnostics handed over before, the
delivery had a number of turns: it has handed over `all`, or one for each turn. -/
def Delivering (first all turns : Nat) (e : Engine χ σ ρ π) : Prop :=
  ∃ run, e.lifecycle = .running run ∧ run.delivery = .receiving ∧
    (all ≤ e.delivered.length ∨ turns + first ≤ e.delivered.length)

theorem Delivering.turned (h : Delivering first all turns e) (hreturns : ∀ ds d, S.consumer.reply ds d ≠ .hangs)
    (hdraining : ∀ run, e.lifecycle = .running run → run.draining = false)
    (hdelivered : e.delivered = e.shared.diagnostics.history) (hall : all ≤ e.shared.diagnostics.log.length) :
    Delivering first all (turns + 1) (S.apply e .delivery) := by
  obtain ⟨run, hl, hreceiving, hbound⟩ := h
  rw [apply_delivery hl (hdraining run hl) hreceiving hreturns]
  cases hq : e.shared.diagnostics.next? with
  | none =>
    -- nothing waits, so everything was handed over
    refine ⟨run, hl, hreceiving, .inl ?_⟩
    rw [← e.shared.diagnostics.history_append_items, Queue.next?_eq_none_iff.mp hq, List.append_nil] at hall
    rw [hdelivered]
    exact hall
  | some next =>
    refine ⟨run, rfl, hreceiving, ?_⟩
    have hlength : (e.delivered ++ [next.1]).length = e.delivered.length + 1 := by
      rw [List.length_append, List.length_singleton]
    rw [hlength]
    omega

/-- While the run goes on, what does not concern its delivery takes nothing from it. -/
theorem Delivering.kept {run' : Run ρ} (h : Delivering first all turns e) (hl' : e'.lifecycle = .running run')
    (hreceiving : ∀ run, e.lifecycle = .running run → run.delivery = .receiving → run'.delivery = .receiving)
    (hdelivered : e.delivered <+: e'.delivered) : Delivering first all turns e' := by
  obtain ⟨run, hl, hbefore, hbound⟩ := h
  exact ⟨run', hl', hreceiving run hl hbefore,
    hbound.imp (·.trans hdelivered.length_le) (·.trans hdelivered.length_le)⟩

end Service

end Attestor
