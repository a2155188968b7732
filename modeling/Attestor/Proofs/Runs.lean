import Attestor.Proofs.Additions
import Attestor.Proofs.Provenance

/-!
Runs of an engine. Whatever its tasks do, an engine stands in one of four ways: it was never started, it runs, a
call closes its run, or it is stopped. A move keeps that, or it spawns a run, begins to close one, or puts an end to
one (`turnover`). A call that closes a run joins its tasks one after the other; so a run is given up only after all
of its tasks have ended, and runs are numbered in the order in which they begin (`Tidy.change`).
-/

namespace Attestor

namespace Service

variable {ρ : Type}

/-! ### How an engine stands -/

/-- The life cycle of an engine, whatever its tasks do. -/
inductive Standing where
  | idle
  | running (id : Nat)
  /-- A call closes the run. -/
  | closing (id : Nat) (next : Afterwards)
  | stopped
  deriving DecidableEq

/-- How a life cycle stands. -/
def Lifecycle.standing : Lifecycle ρ → Standing
  | .idle => .idle
  | .running run => .running run.id
  | .closing run _ _ next => .closing run.id next
  | .stopped => .stopped

/-- The run that is not given up yet. -/
def Standing.run? : Standing → Option Nat
  | .running id => some id
  | .closing id _ => some id
  | _ => none

/-- A call closes the run. -/
def Standing.isClosing : Standing → Bool
  | .closing _ _ => true
  | _ => false

end Service

namespace Engine

variable {χ σ ρ π : Type}

/-- How an engine stands. -/
def standing (e : Engine χ σ ρ π) : Service.Standing := e.lifecycle.standing

theorem runId_eq (e : Engine χ σ ρ π) : e.runId = e.standing.run? := by
  unfold runId standing
  cases e.lifecycle <;> rfl

theorem standing_running {e : Engine χ σ ρ π} {id : Nat} (h : e.standing = .running id) :
    ∃ run, e.lifecycle = .running run ∧ run.id = id := by
  unfold standing at h
  cases hl : e.lifecycle with
  | running run =>
    rw [hl] at h
    cases h
    exact ⟨run, rfl, rfl⟩
  | _ =>
    rw [hl] at h
    cases h

end Engine

namespace Service

open Submission (Loop)

variable {χ σ ρ π : Type} {S : Service χ σ ρ π} {e e' : Engine χ σ ρ π} {m : Move}

theorem Lifecycle.of_mapRun {l : Lifecycle ρ} {f : Run ρ → Run ρ} {run : Run ρ} (h : (l.mapRun f).run? = some run) :
    ∃ before, l.run? = some before ∧ run = f before := by
  rw [run?_mapRun] at h
  obtain ⟨before, hbefore, rfl⟩ := Option.map_eq_some_iff.mp h
  exact ⟨before, hbefore, rfl⟩

theorem Lifecycle.standing_mapRun (l : Lifecycle ρ) {f : Run ρ → Run ρ} (hf : ∀ run, (f run).id = run.id) :
    (l.mapRun f).standing = l.standing := by
  cases l with
  | running run => exact congrArg Standing.running (hf run)
  | closing run joining deadline next => exact congrArg (Standing.closing · next) (hf run)
  | _ => rfl

/-- There is a report for each run as before, and no report of an exit is withdrawn. -/
structure Reported (e e' : Engine χ σ ρ π) : Prop where
  length : e'.reports.length = e.reports.length
  finished : ∀ id, (e.report id).isFinished = true → (e'.report id).isFinished = true

theorem Reported.of_eq (h : e'.reports = e.reports) : Reported e e' :=
  ⟨by rw [h], fun id hid => by unfold Engine.report at hid ⊢; rw [h]; exact hid⟩

theorem report_setReport (e : Engine χ σ ρ π) (id id' : Nat) (r : Report) :
    (e.setReport id r).report id' =
      if id' = id ∧ 0 < id ∧ id ≤ e.reports.length then r else e.report id' := by
  unfold Engine.report Engine.setReport
  by_cases hid' : id' = 0
  · rw [if_pos hid', if_neg (by omega), if_pos hid']
  · rw [if_neg hid', if_neg hid']
    dsimp only
    by_cases hid : id = 0
    · rw [if_pos hid, if_neg (by omega)]
    · rw [if_neg hid, List.getD_eq_getElem?_getD, List.getD_eq_getElem?_getD, List.getElem?_set]
      by_cases heq : id - 1 = id' - 1
      · rw [if_pos heq]
        by_cases hlt : id - 1 < e.reports.length
        · rw [if_pos hlt, if_pos (by omega)]
          rfl
        · rw [if_neg hlt, if_neg (by omega), List.getElem?_eq_none (by omega)]
      · rw [if_neg heq, if_neg (by omega)]

theorem length_setReport (e : Engine χ σ ρ π) (id : Nat) (r : Report) :
    (e.setReport id r).reports.length = e.reports.length := by
  unfold Engine.setReport
  dsimp only
  split
  · rfl
  · exact List.length_set

/-- What is known after a stream has ended: a run is lost only if it has not reported. -/
theorem report_endStream (e : Engine χ σ ρ π) (id id' : Nat) (r : Report) :
    (endStream e id r).report id' =
      if (id' = id ∧ 0 < id ∧ id ≤ e.reports.length) ∧ (r = .lost → e.report id = .pending) then r
      else e.report id' := by
  cases r with
  | lost =>
    unfold endStream Engine.lose
    dsimp only
    split
    next hpending =>
      have hreport : e.report id = .pending := hpending
      simp only [report_setReport, hreport, implies_true, and_true]
      rfl
    next hpending => exact (if_neg fun h => hpending (h.2 rfl)).symm
  | _ =>
    simp only [endStream, report_setReport, reduceCtorEq, false_implies, and_true]
    rfl

theorem Reported.endStream (e : Engine χ σ ρ π) (id : Nat) {r : Report} (hr : r ≠ .pending) :
    Reported e (endStream e id r) where
  length := by
    cases r with
    | lost =>
      simp only [Service.endStream, Engine.lose]
      split
      · exact length_setReport _ _ _
      · rfl
    | _ => exact length_setReport _ _ _
  finished id' hfinished := by
    rw [report_endStream]
    split
    next h =>
      obtain ⟨⟨rfl, -⟩, hpending⟩ := h
      cases r with
      | lost =>
        rw [hpending rfl] at hfinished
        exact hfinished
      | pending => exact absurd rfl hr
      | exited exit => rfl
    next => exact hfinished

/-- A call that closes a run, and what comes after. -/
inductive Closes (e : Engine χ σ ρ π) (id : Nat) : Move → Afterwards → Prop where
  | stop : Closes e id .stop .stop
  | restart {height} : Closes e id (.restart height) (.start height)
  /-- A run that has exited is replaced. -/
  | replace {height} (h : (e.report id).isFinished = true) : Closes e id (.start height) (.start height)

/-- What a move can do to the life cycle. -/
inductive Turnover (S : Service χ σ ρ π) (e : Engine χ σ ρ π) : Move → Engine χ σ ρ π → Prop where
  | kept {m : Move} {e' : Engine χ σ ρ π} (hs : e'.standing = e.standing) (hr : Reported e e') : Turnover S e m e'
  | spawned {m : Move} {height} (hl : e.lifecycle = .idle ∨ e.lifecycle = .stopped)
      (hm : m = .start height ∨ m = .restart height) : Turnover S e m (e.spawn height)
  | closed {m : Move} {run next} (hl : e.lifecycle = .running run) (hm : Closes e run.id m next) :
      Turnover S e m (S.close e run next)
  | finished {run deadline next} (hl : e.lifecycle = .closing run .delivery deadline next)
      (hj : run.delivery = .over) : Turnover S e .control (finish e next)

theorem standing_endStream (e : Engine χ σ ρ π) (id : Nat) (r : Report) :
    (endStream e id r).standing = e.standing := by
  rw [Engine.standing, lifecycle_endStream]
  exact Lifecycle.standing_mapRun _ fun _ => rfl

/-- A move does one of these things to the life cycle. -/
theorem turnover (h : Change S e m e') : Turnover S e m e' := by
  cases h with
  | still => exact .kept rfl (.of_eq rfl)
  | streamMoved hr ht hx hs => exact .kept (Lifecycle.standing_mapRun _ fun _ => rfl) (.of_eq rfl)
  | streamExited hr ht hx => exact .kept (standing_endStream ..) (.endStream e _ nofun)
  | streamCrashed hr ht hx hs => exact .kept (standing_endStream ..) (.endStream e _ nofun)
  | loopMoved hr hl => exact .kept (Lifecycle.standing_mapRun _ fun _ => rfl) (.of_eq rfl)
  | deliveryMoved hr hd => exact .kept (Lifecycle.standing_mapRun _ fun _ => rfl) (.of_eq rfl)
  | streamJoined hl hj => exact .kept (by rw [Engine.standing, Engine.standing, hl]; rfl) (.of_eq rfl)
  | loopJoined hl hj => exact .kept (by rw [Engine.standing, Engine.standing, hl]; rfl) (.of_eq rfl)
  | deliveryJoined hl hj => exact .finished hl hj
  | @aborted run joining deadline next hl hj hd =>
    cases joining with
    | stream =>
      have hreported : Reported e (endStream e run.id .lost) := .endStream e _ nofun
      exact .kept (standing_endStream ..) hreported
    | _ => exact .kept (Lifecycle.standing_mapRun _ fun _ => rfl) (.of_eq rfl)
  | spawned hl hm => exact .spawned hl hm
  | replaced hl hf => exact .closed hl (.replace hf)
  | restarted hl => exact .closed hl .restart
  | stopped hl => exact .closed hl .stop
  | _ => exact .kept rfl (.of_eq rfl)

/-! ### The run -/

/-- The move aborts a task that does not end in time. -/
def aborts (e : Engine χ σ ρ π) : Move → Bool
  | .control =>
    match e.lifecycle with
    | .closing run joining deadline _ => !joined run joining && decide (deadline ≤ e.now)
    | _ => false
  | _ => false

theorem aborts_of_closing {run : Run ρ} {joining : Joining} {deadline : Nat}
    {next : Afterwards} (hl : e.lifecycle = .closing run joining deadline next)
    (hj : joined run joining = false) (hd : deadline ≤ e.now) : aborts e .control = true := by
  simp [aborts, hl, hj, hd]

/-- What a move can do to the run that is there. -/
inductive RunChange (S : Service χ σ ρ π) (e : Engine χ σ ρ π) (run : Run ρ) :
    Move → Engine χ σ ρ π → Run ρ → Prop where
  /-- None of its tasks makes a step. -/
  | kept {m : Move} {e' : Engine χ σ ρ π} {run'} (hid : run'.id = run.id) (hstream : run'.stream = run.stream)
      (hloop : run'.loop = run.loop) (hdelivery : run'.delivery = run.delivery) (hreports : e'.reports = e.reports) :
      RunChange S e run m e' run'
  | streamMoved {e' : Engine χ σ ρ π} {task task'} (ht : run.stream = some task) (hx : task.exit? = none)
      (hs : task.step S.driver S.collaborators run.cancelled e.now e.shared = .moved (task', e'.shared))
      (hreports : e'.reports = e.reports) : RunChange S e run .stream e' { run with stream := some task' }
  | streamExited {task exit} (ht : run.stream = some task) (hx : task.exit? = some exit) :
      RunChange S e run .stream (endStream e run.id (.exited exit)) { run with stream := none }
  | streamCrashed {task p} (ht : run.stream = some task) (hx : task.exit? = none)
      (hs : task.step S.driver S.collaborators run.cancelled e.now e.shared = .crashed p) :
      RunChange S e run .stream (endStream e run.id .lost) { run with stream := none }
  | loopMoved {e' : Engine χ σ ρ π} {loop}
      (hl : Loop.Change S.submitter S.collaborators.chain run.cancelled false run.loop e.shared loop e'.shared)
      (hreports : e'.reports = e.reports) : RunChange S e run .submitter e' { run with loop }
  | deliveryMoved {e' : Engine χ σ ρ π} {delivery}
      (hd : Delivery.Change run.draining run.delivery e.shared.diagnostics e.delivered delivery
        e'.shared.diagnostics e'.delivered)
      (hreports : e'.reports = e.reports) : RunChange S e run .delivery e' { run with delivery }
  | aborted {e' : Engine χ σ ρ π} {run'} (h : aborts e .control = true) : RunChange S e run .control e' run'

/-- The run that is there after a move was there before, or it has just begun. -/
theorem run_change (h : Change S e m e') {run' : Run ρ} (hr' : e'.lifecycle.run? = some run') :
    (∃ run, e.lifecycle.run? = some run ∧ RunChange S e run m e' run') ∨
      ∃ height, run' = .begin (e.reports.length + 1) height ∧ e'.reports = e.reports ++ [.pending] := by
  cases h with
  | streamMoved hr ht hx hs =>
    obtain ⟨run, hrun, rfl⟩ := Lifecycle.of_mapRun hr'
    obtain rfl := Option.some.inj (hr.symm.trans hrun)
    exact .inl ⟨_, hr, .streamMoved ht hx hs rfl⟩
  | streamExited hr ht hx =>
    rw [lifecycle_endStream] at hr'
    obtain ⟨run, hrun, rfl⟩ := Lifecycle.of_mapRun hr'
    obtain rfl := Option.some.inj (hr.symm.trans hrun)
    exact .inl ⟨_, hr, .streamExited ht hx⟩
  | streamCrashed hr ht hx hs =>
    rw [lifecycle_endStream] at hr'
    obtain ⟨run, hrun, rfl⟩ := Lifecycle.of_mapRun hr'
    obtain rfl := Option.some.inj (hr.symm.trans hrun)
    exact .inl ⟨_, hr, .streamCrashed ht hx hs⟩
  | loopMoved hr hl =>
    obtain ⟨run, hrun, rfl⟩ := Lifecycle.of_mapRun hr'
    obtain rfl := Option.some.inj (hr.symm.trans hrun)
    exact .inl ⟨_, hr, .loopMoved (Submission.Loop.step_change hl) rfl⟩
  | deliveryMoved hr hd =>
    obtain ⟨run, hrun, rfl⟩ := Lifecycle.of_mapRun hr'
    obtain rfl := Option.some.inj (hr.symm.trans hrun)
    exact .inl ⟨_, hr, .deliveryMoved (Delivery.step_change hd) rfl⟩
  | streamJoined hl hj =>
    cases hr'
    exact .inl ⟨run', by rw [hl]; rfl, .kept rfl rfl rfl rfl rfl⟩
  | @loopJoined run deadline next hl hj =>
    cases hr'
    exact .inl ⟨run, by rw [hl]; rfl, .kept rfl rfl rfl rfl rfl⟩
  | @deliveryJoined run deadline next hl hj =>
    cases next with
    | stop => cases hr'
    | start height =>
      cases hr'
      exact .inr ⟨height, rfl, rfl⟩
  | @aborted run joining deadline next hl hj hd =>
    exact .inl ⟨run, by rw [hl]; rfl, .aborted (aborts_of_closing hl hj hd)⟩
  | @spawned m height hl hm =>
    cases hr'
    exact .inr ⟨height, rfl, rfl⟩
  | @replaced run height hl hf =>
    cases hr'
    exact .inl ⟨run, by rw [hl]; rfl, .kept rfl rfl rfl rfl rfl⟩
  | @restarted run height hl =>
    cases hr'
    exact .inl ⟨run, by rw [hl]; rfl, .kept rfl rfl rfl rfl rfl⟩
  | @stopped run hl =>
    cases hr'
    exact .inl ⟨run, by rw [hl]; rfl, .kept rfl rfl rfl rfl rfl⟩
  | _ => exact .inl ⟨run', hr', .kept rfl rfl rfl rfl rfl⟩

/-! ### Tasks are joined one after the other -/

/-- The delivery of the run was not told to drain, and does not. -/
structure Run.Undrained (run : Run ρ) : Prop where
  draining : run.draining = false
  delivery : run.delivery ≠ .draining ∧ run.delivery ≠ .over

/-- No task of the run is alive. -/
structure Run.Ended (run : Run ρ) : Prop where
  stream : run.stream = none
  loop : run.loop = .over
  delivery : run.delivery = .over

/-- The tasks that were joined have ended, and the delivery drains only after that. -/
def Lifecycle.Staged : Lifecycle ρ → Prop
  | .running run => run.Undrained
  | .closing run .stream _ _ => run.Undrained
  | .closing run .submitter _ _ => run.stream = none ∧ run.Undrained
  | .closing run .delivery _ _ => run.stream = none ∧ run.loop = .over ∧ run.draining = true
  | _ => True

/-- Tasks have ended where they were joined, and the current run bears the number of the last one that began. -/
structure Tidy (e : Engine χ σ ρ π) : Prop where
  staged : e.lifecycle.Staged
  numbered : ∀ id, e.runId = some id → 0 < id ∧ id = e.reports.length

/-- A task of the run makes a step. -/
theorem Lifecycle.Staged.mapRun {l : Lifecycle ρ} (h : l.Staged) {f : Run ρ → Run ρ}
    (hundrained : ∀ run, l.run? = some run → run.Undrained → (f run).Undrained)
    (hdraining : ∀ run, (f run).draining = run.draining)
    (hstream : ∀ run, l.run? = some run → run.stream = none → (f run).stream = none)
    (hloop : ∀ run, l.run? = some run → run.loop = .over → (f run).loop = .over) : (l.mapRun f).Staged := by
  cases l with
  | running run => exact hundrained run rfl h
  | closing run joining deadline next =>
    cases joining with
    | stream => exact hundrained run rfl h
    | submitter => exact ⟨hstream run rfl h.1, hundrained run rfl h.2⟩
    | delivery => exact ⟨hstream run rfl h.1, hloop run rfl h.2.1, (hdraining run).trans h.2.2⟩
  | _ => trivial

/-- A delivery that is not told to drain does not begin to. -/
theorem Run.Undrained.delivered {run : Run ρ} (h : run.Undrained) {queue queue' : Queue Diagnostic}
    {delivered delivered' : List Diagnostic} {phase : Delivery}
    (hchange : Delivery.Change run.draining run.delivery queue delivered phase queue' delivered') :
    Run.Undrained { run with delivery := phase } := by
  refine ⟨h.draining, ?_⟩
  cases hchange with
  | told hp hd =>
    rw [h.draining] at hd
    cases hd
  | handed hp hq hn =>
    dsimp only
    rcases hn with rfl | rfl
    · exact ⟨nofun, nofun⟩
    · exact h.delivery
  | drained hp hq => exact absurd hp h.delivery.1

theorem Run.Undrained.begin (id : Nat) (height : Option Chain.Height) : (Run.begin id height : Run ρ).Undrained :=
  ⟨rfl, nofun, nofun⟩

theorem Lifecycle.Staged.streamEnded (h : e.lifecycle.Staged) (id : Nat) (r : Report) :
    (endStream e id r).lifecycle.Staged := by
  rw [lifecycle_endStream]
  exact h.mapRun (fun _ _ hundrained => ⟨hundrained.draining, hundrained.delivery⟩) (fun _ => rfl) (fun _ _ _ => rfl)
    fun _ _ hover => hover

theorem Lifecycle.Staged.aborted (h : e.lifecycle.Staged) {run : Run ρ} {joining : Joining} {deadline : Nat}
    {next : Afterwards} (hl : e.lifecycle = .closing run joining deadline next) :
    (abort e run joining).lifecycle.Staged := by
  cases joining with
  | stream => exact h.streamEnded _ _
  | submitter =>
    exact h.mapRun (fun _ _ hundrained => ⟨hundrained.draining, hundrained.delivery⟩) (fun _ => rfl)
      (fun _ _ hnone => hnone) fun _ _ _ => rfl
  | delivery =>
    rw [hl] at h
    show (e.lifecycle.mapRun _).Staged
    rw [hl]
    exact h

/-- Tasks are joined one after the other. -/
theorem Lifecycle.Staged.change (h : e.lifecycle.Staged) (hchange : Change S e m e') :
    e'.lifecycle.Staged := by
  cases hchange with
  | @streamMoved run task task' shared hr ht hx hs =>
    refine h.mapRun (fun _ _ hundrained => ⟨hundrained.draining, hundrained.delivery⟩) (fun _ => rfl)
      (fun run' hr' hnone => ?_) fun _ _ hover => hover
    rw [hr] at hr'
    cases hr'
    rw [hnone] at ht
    cases ht
  | streamExited hr ht hx => exact h.streamEnded _ _
  | streamCrashed hr ht hx hs => exact h.streamEnded _ _
  | @loopMoved run loop shared hr hl =>
    refine h.mapRun (fun _ _ hundrained => ⟨hundrained.draining, hundrained.delivery⟩) (fun _ => rfl)
      (fun _ _ hnone => hnone) fun run' hr' hover => ?_
    rw [hr] at hr'
    cases hr'
    rw [hover] at hl
    cases hl
  | @deliveryMoved run delivery diagnostics delivered hr hd =>
    refine h.mapRun (fun run' hr' hundrained => ?_) (fun _ => rfl) (fun _ _ hnone => hnone)
      fun _ _ hover => hover
    rw [hr] at hr'
    cases hr'
    exact hundrained.delivered (Delivery.step_change hd)
  | streamJoined hl hj =>
    rw [hl] at h
    exact ⟨hj, h⟩
  | loopJoined hl hj =>
    rw [hl] at h
    exact ⟨h.1, hj, rfl⟩
  | @deliveryJoined run deadline next hl hj =>
    cases next with
    | stop => trivial
    | start height => exact .begin _ _
  | aborted hl hj hd => exact h.aborted hl
  | spawned hl hm => exact .begin _ _
  | @replaced run height hl hf =>
    rw [hl] at h
    exact ⟨h.draining, h.delivery⟩
  | @restarted run height hl =>
    rw [hl] at h
    exact ⟨h.draining, h.delivery⟩
  | @stopped run hl =>
    rw [hl] at h
    exact ⟨h.draining, h.delivery⟩
  | _ => exact h

theorem Tidy.initial (shared : Shared χ σ π) : Tidy (.initial shared : Engine χ σ ρ π) :=
  ⟨trivial, nofun⟩

theorem runId_spawn (e : Engine χ σ ρ π) (height : Option Chain.Height) :
    (e.spawn height).runId = some (e.reports.length + 1) := rfl

theorem length_spawn (e : Engine χ σ ρ π) (height : Option Chain.Height) :
    (e.spawn height).reports.length = e.reports.length + 1 := List.length_append

/-- What is known of the runs before stays known when a run is spawned. -/
theorem report_spawn (e : Engine χ σ ρ π) (height : Option Chain.Height) {id : Nat} (h : id ≤ e.reports.length) :
    (e.spawn height).report id = e.report id := by
  unfold Engine.report
  split
  next => rfl
  next hid =>
    have hlt : id - 1 < e.reports.length := by omega
    rw [List.getD_eq_getElem?_getD, List.getD_eq_getElem?_getD]
    exact congrArg (Option.getD · Report.pending) (List.getElem?_append_left hlt)

theorem isFinished_spawn (e : Engine χ σ ρ π) (height : Option Chain.Height) {id : Nat}
    (h : (e.report id).isFinished = true) : ((e.spawn height).report id).isFinished = true := by
  by_cases hid : id ≤ e.reports.length
  · rw [report_spawn e height hid]
    exact h
  · -- nothing is known of a run that has not begun
    rw [Engine.report, if_neg (by omega), List.getD_eq_getElem?_getD, List.getElem?_eq_none (by omega)] at h
    cases h

/-- A move keeps an engine tidy. -/
theorem Tidy.change (h : Tidy e) (hchange : Change S e m e') : Tidy e' where
  staged := h.staged.change hchange
  numbered id hid := by
    cases turnover hchange with
    | kept hs hr =>
      rw [Engine.runId_eq, hs, ← Engine.runId_eq] at hid
      rw [hr.length]
      exact h.numbered id hid
    | spawned hl hm =>
      rw [runId_spawn] at hid
      cases hid
      exact ⟨Nat.succ_pos _, (length_spawn ..).symm⟩
    | @closed _ run next hl hm =>
      refine h.numbered id ?_
      rw [Engine.runId, hl]
      exact hid
    | @finished run _ next hl hj =>
      cases next with
      | stop => cases hid
      | start height =>
        rw [finish, runId_spawn] at hid
        cases hid
        exact ⟨Nat.succ_pos _, (length_spawn ..).symm⟩

/-- A run that is given up has ended. -/
theorem Tidy.ended (h : Tidy e) {run : Run ρ} {deadline : Nat} {next : Afterwards}
    (hl : e.lifecycle = .closing run .delivery deadline next) (hj : run.delivery = .over) : run.Ended := by
  have hstaged := h.staged
  rw [hl] at hstaged
  exact ⟨hstaged.1, hstaged.2.1, hj⟩

/-! ### Histories -/

namespace History

variable (H : S.History)

/-- The diagnostics that are published at a moment. -/
def news (i : Nat) : List Diagnostic :=
  (H.past (i + 1)).diagnostics.log.drop (H.past i).diagnostics.log.length

/-- What comes next is a change that a move makes, or a change from outside. -/
theorem change (i : Nat) :
    (∃ m, H.move i = some m ∧ Change S (H.engine i) m (H.engine (i + 1))) ∨
      H.move i = none ∧ ∃ chain source assets,
        H.engine (i + 1) = { H.engine i with shared := { H.past i with chain, source, assets } } := by
  cases hm : H.move i with
  | some m => exact .inl ⟨m, rfl, H.applied hm ▸ apply_change S _ m⟩
  | none => exact .inr ⟨rfl, H.unmoved hm⟩

/-- The life cycle goes on as it is, or a move turns it over. -/
theorem turnover (i : Nat) :
    ((H.engine (i + 1)).standing = (H.engine i).standing ∧ Reported (H.engine i) (H.engine (i + 1))) ∨
      ∃ m, H.move i = some m ∧ Turnover S (H.engine i) m (H.engine (i + 1)) := by
  rcases H.change i with ⟨m, hm, hchange⟩ | ⟨-, chain, source, assets, he⟩
  · exact .inr ⟨m, hm, Service.turnover hchange⟩
  · rw [he]
    exact .inl ⟨rfl, .of_eq rfl⟩

variable {H} {shared : Shared χ σ π}

/-- An engine is tidy at every moment. -/
theorem tidy (hbegin : H.engine 0 = .initial shared) (i : Nat) : Tidy (H.engine i) := by
  induction i with
  | zero =>
    rw [hbegin]
    exact .initial shared
  | succ i ih =>
    rcases H.change i with ⟨m, -, hchange⟩ | ⟨-, chain, source, assets, he⟩
    · exact ih.change hchange
    · rw [he]
      exact ⟨ih.staged, ih.numbered⟩

variable (H)

/-- A run begins: it is there at the next moment. -/
structure Begins (i id : Nat) : Prop where
  before : (H.engine i).runId ≠ some id
  after : (H.engine (i + 1)).runId = some id

/-- A run is given up: it is there for the last time. -/
structure Ends (i id : Nat) : Prop where
  before : (H.engine i).runId = some id
  after : (H.engine (i + 1)).runId ≠ some id

/-- A call is made at one moment, when no other call is under way, and returns at a later one. -/
structure Completes (m : Move) (i j : Nat) : Prop where
  made : H.move i = some m
  free : (H.engine i).standing.isClosing = false
  later : i < j
  meanwhile : ∀ k, i < k → k < j → (H.engine k).standing.isClosing = true
  returned : (H.engine j).standing.isClosing = false

/-- A call closes the run, and returns. -/
structure Shuts (m : Move) (i j id : Nat) : Prop extends Completes H m i j where
  running : (H.engine i).standing = .running id
  closes : ∃ next, Closes (H.engine i) id m next

variable {H}

/-- A run that ends has ended all of its tasks, and a call that waited for the last of them goes on. -/
theorem Ends.finished {i id : Nat} (h : H.Ends i id) :
    ∃ run deadline next, (H.engine i).lifecycle = .closing run .delivery deadline next ∧ run.id = id ∧
      run.delivery = .over ∧ H.move i = some .control ∧ H.engine (i + 1) = finish (H.engine i) next := by
  have hbefore := h.before
  have hafter := h.after
  rw [Engine.runId_eq] at hbefore hafter
  rcases H.turnover i with ⟨hs, -⟩ | ⟨m, hm, hturn⟩
  · rw [hs] at hafter
    exact absurd hbefore hafter
  · generalize he : H.engine (i + 1) = e' at hturn hafter
    cases hturn with
    | kept hs hr =>
      rw [hs] at hafter
      exact absurd hbefore hafter
    | spawned hl hm =>
      rcases hl with hl | hl <;> rw [Engine.standing, hl] at hbefore <;> cases hbefore
    | closed hl hm =>
      rw [Engine.standing, hl] at hbefore
      exact absurd hbefore hafter
    | finished hl hj =>
      rw [Engine.standing, hl] at hbefore
      exact ⟨_, _, _, hl, Option.some.inj hbefore, hj, hm, rfl⟩

/-- A run that ends has no task left. -/
theorem Ends.tasks {i id : Nat} (hbegin : H.engine 0 = .initial shared) (h : H.Ends i id) :
    ∃ run, (H.engine i).lifecycle.run? = some run ∧ run.id = id ∧ run.Ended := by
  obtain ⟨run, deadline, next, hl, hid, hj, -, -⟩ := h.finished
  exact ⟨run, by rw [hl]; rfl, hid, (tidy hbegin i).ended hl hj⟩

end History

/-! ### Tasks that end in time -/

/-- No task is aborted. -/
def History.Timely (H : S.History) : Prop :=
  ∀ i m, H.move i = some m → aborts (H.engine i) m = false

/-! ### Diagnostics -/

section

variable {S : Service χ σ ρ π} {e e' : Engine χ σ ρ π} {m : Move}

/-- No diagnostic that was published is unsaid. -/
theorem log_change (h : Change S e m e') : e.shared.diagnostics.log <+: e'.shared.diagnostics.log := by
  cases shared_change h with
  | added hs hd => exact hs.diagnostics.log
  | consumed hl hd => exact hl.tells.diagnostics.log
  | delivered hp hs =>
    have hlog : e'.shared.diagnostics.log = e.shared.diagnostics.log := by rw [hs, hp.log]
    exact hlog ▸ List.prefix_refl _
  | @finished _ run deadline next hl hj he =>
    rw [he]
    cases next <;> exact List.prefix_refl _
  | @aborted _ run deadline next hl hj hd he =>
    have hlog : e'.shared.diagnostics.log = e.shared.diagnostics.log := by rw [he, abort, Submission.Loop.abort_eq]
    exact hlog ▸ List.prefix_refl _

end

namespace History

variable (H : S.History)

/-- What has been published, and what is published now. -/
theorem log_succ (i : Nat) : (H.past (i + 1)).diagnostics.log = (H.past i).diagnostics.log ++ H.news i := by
  have hprefix : (H.past i).diagnostics.log <+: (H.past (i + 1)).diagnostics.log := by
    rcases H.change i with ⟨m, -, hchange⟩ | ⟨-, chain, source, assets, he⟩
    · exact log_change hchange
    · rw [past, past, he]
      exact List.prefix_refl _
  obtain ⟨ds, hds⟩ := hprefix
  rw [news, ← hds, List.drop_left]

variable {H} in
theorem log_later {i j : Nat} (h : i ≤ j) : (H.past i).diagnostics.log <+: (H.past j).diagnostics.log := by
  induction h with
  | refl => exact List.prefix_refl _
  | step _ ih =>
    rw [H.log_succ]
    exact ih.trans (List.prefix_append _ _)

/-- Nothing is published while the engine stays as it is. -/
theorem news_of_eq {i : Nat} (h : H.engine (i + 1) = H.engine i) : H.news i = [] := by
  rw [news, past, past, h, List.drop_length]

end History

end Service

end Attestor
