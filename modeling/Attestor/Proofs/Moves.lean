import Attestor.Service.Engine

/-!
Changes that moves make to an engine. Each row of `Change` is one thing that a move can do, with its guard, and
making a move does one of them or nothing (`apply_change`).
-/

namespace Attestor.Service

open Routing (Agenda)
open Submission (Loop)

variable {χ σ ρ π : Type}

@[simp] theorem Lifecycle.run?_mapRun (l : Lifecycle ρ) (f : Run ρ → Run ρ) :
    (l.mapRun f).run? = l.run?.map f := by
  cases l <;> rfl

namespace Lifecycle

/-- The stream task that may be alive. -/
def task? (l : Lifecycle ρ) : Option (Stream.Task ρ) :=
  l.run?.bind (·.stream)

theorem task?_mapRun (l : Lifecycle ρ) {f : Run ρ → Run ρ} (hf : ∀ run, (f run).stream = run.stream) :
    (l.mapRun f).task? = l.task? := by
  rw [task?, task?, run?_mapRun]
  cases l.run? with
  | none => rfl
  | some run => exact hf run

end Lifecycle

/-! ### The end of a stream changes the life cycle and the reports only -/

section

variable (e : Engine χ σ ρ π) (id : Nat) (r : Report)

theorem lifecycle_endStream :
    (endStream e id r).lifecycle = e.lifecycle.mapRun fun run => { run with stream := none } := by
  cases r with
  | lost => simp only [endStream, Engine.lose]; split <;> rfl
  | _ => rfl

@[simp] theorem shared_endStream : (endStream e id r).shared = e.shared := by
  cases r with
  | lost => simp only [endStream, Engine.lose]; split <;> rfl
  | _ => rfl

@[simp] theorem replays_endStream : (endStream e id r).replays = e.replays := by
  cases r with
  | lost => simp only [endStream, Engine.lose]; split <;> rfl
  | _ => rfl

@[simp] theorem extras_endStream : (endStream e id r).extras = e.extras := by
  cases r with
  | lost => simp only [endStream, Engine.lose]; split <;> rfl
  | _ => rfl

theorem task?_endStream : (endStream e id r).lifecycle.task? = none := by
  rw [lifecycle_endStream, Lifecycle.task?, Lifecycle.run?_mapRun]
  cases e.lifecycle.run? <;> rfl

end

/-- What a move can turn an engine into. -/
inductive Change (S : Service χ σ ρ π) (e : Engine χ σ ρ π) : Move → Engine χ σ ρ π → Prop where
  /-- The move is not possible, or not at this time. -/
  | still {m} : Change S e m e
  | streamMoved {run task task' shared} (hr : e.lifecycle.run? = some run) (ht : run.stream = some task)
      (hx : task.exit? = none)
      (hs : task.step S.driver S.collaborators run.cancelled e.now e.shared = .moved (task', shared)) :
      Change S e .stream
        { e with
          shared
          lifecycle := e.lifecycle.mapRun fun run => { run with stream := some task' } }
  | streamExited {run task exit} (hr : e.lifecycle.run? = some run) (ht : run.stream = some task)
      (hx : task.exit? = some exit) : Change S e .stream (endStream e run.id (.exited exit))
  | streamCrashed {run task p} (hr : e.lifecycle.run? = some run) (ht : run.stream = some task)
      (hx : task.exit? = none)
      (hs : task.step S.driver S.collaborators run.cancelled e.now e.shared = .crashed p) :
      Change S e .stream (endStream e run.id .lost)
  | loopMoved {run loop shared} (hr : e.lifecycle.run? = some run)
      (hl : run.loop.step S.submitter S.collaborators.chain run.cancelled false e.shared =
        .moved (loop, shared)) :
      Change S e .submitter
        { e with shared, lifecycle := e.lifecycle.mapRun fun run => { run with loop } }
  | deliveryMoved {run delivery diagnostics delivered} (hr : e.lifecycle.run? = some run)
      (hd : run.delivery.step S.consumer run.draining e.shared.diagnostics e.delivered =
        .moved (delivery, diagnostics, delivered)) :
      Change S e .delivery
        { e with
          shared := { e.shared with diagnostics }
          delivered
          lifecycle := e.lifecycle.mapRun fun run => { run with delivery } }
  | streamJoined {run deadline next} (hl : e.lifecycle = .closing run .stream deadline next)
      (hj : run.stream = none) :
      Change S e .control
        { e with lifecycle := .closing run .submitter (e.now + S.shutdownTimeout) next }
  | loopJoined {run deadline next} (hl : e.lifecycle = .closing run .submitter deadline next)
      (hj : run.loop = .over) :
      Change S e .control
        { e with
          lifecycle :=
            .closing { run with draining := true } .delivery (e.now + S.shutdownTimeout) next }
  | deliveryJoined {run deadline next} (hl : e.lifecycle = .closing run .delivery deadline next)
      (hj : run.delivery = .over) : Change S e .control (finish e next)
  /-- The task that is waited for does not end in time. -/
  | aborted {run joining deadline next} (hl : e.lifecycle = .closing run joining deadline next)
      (hj : joined run joining = false) (hd : deadline ≤ e.now) :
      Change S e .control (abort e run joining)
  | spawned {m height} (hl : e.lifecycle = .idle ∨ e.lifecycle = .stopped)
      (hm : m = .start height ∨ m = .restart height) : Change S e m (e.spawn height)
  /-- A run that has exited is replaced. -/
  | replaced {run height} (hl : e.lifecycle = .running run)
      (hf : (e.report run.id).isFinished = true) :
      Change S e (.start height) (S.close e run (.start height))
  | restarted {run height} (hl : e.lifecycle = .running run) :
      Change S e (.restart height) (S.close e run (.start height))
  | stopped {run} (hl : e.lifecycle = .running run) : Change S e .stop (S.close e run .stop)
  | replayFailed {hash error shared} (h : S.eventsOf hash e.shared = (.error error, shared)) :
      Change S e (.replay hash) { e with shared }
  | replayBegun {hash events shared} (h : S.eventsOf hash e.shared = (.ok events, shared)) :
      Change S e (.replay hash) { e with shared, replays := e.replays ++ [.ofEvents events] }
  | replayMoved {i agenda agenda' shared} (hi : e.replays[i]? = some agenda)
      (ha : agenda.step S.driver.router S.collaborators e.shared = .moved (agenda', shared)) :
      Change S e (.replaying i) { e with shared, replays := e.replays.set i agenda' }
  | replayCrashed {i agenda p} (hi : e.replays[i]? = some agenda)
      (ha : agenda.step S.driver.router S.collaborators e.shared = .crashed p) :
      Change S e (.replaying i) { e with replays := e.replays.set i (.ofEvents []) }
  | extraMoved {i extra loop shared} (hi : e.extras[i]? = some extra)
      (hl : extra.loop.step S.submitter S.collaborators.chain extra.cancelled false e.shared =
        .moved (loop, shared)) :
      Change S e (.consuming i) { e with shared, extras := e.extras.set i { extra with loop } }
  | ticked {ms} : Change S e (.tick ms) { e with now := e.now + ms }
  | published {d} : Change S e (.publish d) { e with shared := e.shared.publish d }
  | called : Change S e .consume { e with extras := e.extras ++ [⟨false, .called⟩] }
  | dismissed {i} :
      Change S e (.dismiss i) { e with extras := e.extras.modify i fun x => { x with cancelled := true } }

variable {S : Service χ σ ρ π} {e : Engine χ σ ρ π}

theorem streamStep_change : Change S e .stream (S.apply e .stream) := by
  simp only [apply, streamStep]
  cases hr : e.lifecycle.run? with
  | none => exact .still
  | some run =>
    cases ht : run.stream with
    | none => simpa [ht] using .still
    | some task =>
      simp only [Option.bind_eq_bind, Option.bind_some, ht]
      split
      next hx => exact .streamExited hr ht hx
      next hx =>
        split
        next hs => exact .streamMoved hr ht hx hs
        next hs => exact .streamCrashed hr ht hx hs
        next => exact .still
        next => exact .still

theorem submitterStep_change : Change S e .submitter (S.apply e .submitter) := by
  simp only [apply, submitterStep]
  cases hr : e.lifecycle.run? with
  | none => exact .still
  | some run =>
    simp only [Option.bind_eq_bind, Option.bind_some]
    cases hl : run.loop.step S.submitter S.collaborators.chain run.cancelled false e.shared with
    | moved next => exact .loopMoved hr hl
    | _ => exact .still

theorem deliveryStep_change : Change S e .delivery (S.apply e .delivery) := by
  simp only [apply, deliveryStep]
  cases hr : e.lifecycle.run? with
  | none => exact .still
  | some run =>
    simp only [Option.bind_eq_bind, Option.bind_some]
    cases hd : run.delivery.step S.consumer run.draining e.shared.diagnostics e.delivered with
    | moved next => exact .deliveryMoved hr hd
    | _ => exact .still

theorem controlStep_change : Change S e .control (S.apply e .control) := by
  simp only [apply, controlStep]
  split
  next run joining deadline next hl =>
    split
    next hj =>
      simp only [Option.getD_some, advance, hl]
      cases joining with
      | stream => exact .streamJoined hl (by simpa [joined] using hj)
      | submitter =>
        refine .loopJoined hl ?_
        cases hloop : run.loop with
        | «over» => rfl
        | _ => simp [joined, hloop] at hj
      | delivery => exact .deliveryJoined hl (by simpa [joined] using hj)
    next hj =>
      split
      next hd => exact .aborted hl (by simpa using hj) hd
      next => exact .still
  next => exact .still

theorem replayStep_change {i : Nat} : Change S e (.replaying i) (S.apply e (.replaying i)) := by
  simp only [apply, replayStep]
  cases hi : e.replays[i]? with
  | none => exact .still
  | some agenda =>
    simp only [Option.bind_eq_bind, Option.bind_some]
    split
    next ha => exact .replayMoved hi ha
    next ha => exact .replayCrashed hi ha
    next => exact .still
    next => exact .still

theorem extraStep_change {i : Nat} : Change S e (.consuming i) (S.apply e (.consuming i)) := by
  simp only [apply, extraStep]
  cases hi : e.extras[i]? with
  | none => exact .still
  | some extra =>
    simp only [Option.bind_eq_bind, Option.bind_some]
    cases hl : extra.loop.step S.submitter S.collaborators.chain extra.cancelled false e.shared with
    | moved next => exact .extraMoved hi hl
    | _ => exact .still

/-- A move makes one of the changes. -/
theorem apply_change (S : Service χ σ ρ π) (e : Engine χ σ ρ π) (m : Move) :
    Change S e m (S.apply e m) := by
  cases m with
  | stream => exact streamStep_change
  | submitter => exact submitterStep_change
  | delivery => exact deliveryStep_change
  | control => exact controlStep_change
  | replaying i => exact replayStep_change
  | consuming i => exact extraStep_change
  | tick ms => exact .ticked
  | start height =>
    simp only [apply, start]
    split
    next run hl =>
      split
      next hf => exact .replaced hl hf
      next => exact .still
    next => exact .still
    next hl => exact .spawned (.inl hl) (.inl rfl)
    next hl => exact .spawned (.inr hl) (.inl rfl)
  | stop =>
    simp only [apply, stop]
    split
    next run hl => exact .stopped hl
    next => exact .still
  | restart height =>
    simp only [apply, restart]
    split
    next run hl => exact .restarted hl
    next => exact .still
    next hl => exact .spawned (.inl hl) (.inr rfl)
    next hl => exact .spawned (.inr hl) (.inr rfl)
  | replay hash =>
    simp only [apply, beginReplay]
    split
    next h => exact .replayFailed h
    next h => exact .replayBegun h
  | publish d => exact .published
  | consume => exact .called
  | dismiss i => exact .dismissed

end Attestor.Service
