import Attestor.Proofs.Deliveries

/-!
How the end of a run looks from outside. Whoever holds a run can ask whether it is finished, or wait for its exit.
Both look at the report of the run, and they see the same as long as the run has none, and once it has reported its
exit. They differ in a run whose stream task ended without a report: waiting for it gives an answer, but it never says
that it is finished (`endings_apparent`). A run is lost in this way if its task was aborted because it did not end in
time, or if calling a handler panicked in it, and in no other way (`History.lost_iff`).
-/

namespace Attestor.Service

variable {χ σ ρ π : Type} {S : Service χ σ ρ π}

/-! ### One move -/

/-- The run whose stream task is there. -/
def Lifecycle.live? (l : Lifecycle ρ) : Option Nat :=
  l.run?.bind fun run => run.stream.map fun _ => run.id

/-- A run with this number has begun. -/
def Begun (e : Engine χ σ ρ π) (id : Nat) : Prop :=
  0 < id ∧ id ≤ e.reports.length

section

variable {e e' : Engine χ σ ρ π} {m : Move}

theorem Lifecycle.live?_of_run {l : Lifecycle ρ} {run : Run ρ} (hr : l.run? = some run) :
    l.live? = run.stream.map fun _ => run.id := by
  rw [live?, hr, Option.bind_some]

theorem Lifecycle.live?_of_task {l : Lifecycle ρ} {run : Run ρ} {task : Stream.Task ρ} (hr : l.run? = some run)
    (ht : run.stream = some task) : l.live? = some run.id := by
  rw [live?_of_run hr, ht]
  rfl

theorem Lifecycle.run?_of_running {l : Lifecycle ρ} {run : Run ρ} (hl : l = .running run) : l.run? = some run := by
  rw [hl]
  rfl

theorem Lifecycle.run?_of_closing {l : Lifecycle ρ} {run : Run ρ} {joining : Joining} {deadline : Nat}
    {next : Afterwards} (hl : l = .closing run joining deadline next) : l.run? = some run := by
  rw [hl]
  rfl

theorem Lifecycle.live?_mapRun {l : Lifecycle ρ} {f : Run ρ → Run ρ} (hid : ∀ run, (f run).id = run.id)
    (hstream : ∀ run, l.run? = some run → (f run).stream.isSome = run.stream.isSome) :
    (l.mapRun f).live? = l.live? := by
  rw [live?, live?, run?_mapRun]
  cases hr : l.run? with
  | none => rfl
  | some run =>
    have hsome := hstream run hr
    change (f run).stream.map (fun _ => (f run).id) = run.stream.map fun _ => run.id
    rw [hid]
    cases hs : run.stream with
    | none =>
      rw [hs, Option.isSome_none, Option.isSome_eq_false_iff, Option.isNone_iff_eq_none] at hsome
      rw [hsome]
    | some task =>
      rw [hs, Option.isSome_some, Option.isSome_iff_exists] at hsome
      obtain ⟨task', htask⟩ := hsome
      rw [htask, Option.map_some, Option.map_some]

theorem live?_endStream (e : Engine χ σ ρ π) (id : Nat) (r : Report) : (endStream e id r).lifecycle.live? = none := by
  rw [lifecycle_endStream, Lifecycle.live?, Lifecycle.run?_mapRun]
  cases e.lifecycle.run? <;> rfl

/-- What happens to the reports and to the stream task that is there, by a move or without one. -/
inductive Told (S : Service χ σ ρ π) (e : Engine χ σ ρ π) : Option Move → Engine χ σ ρ π → Prop where
  | same {m : Option Move} {e' : Engine χ σ ρ π} (hreports : e'.reports = e.reports)
      (hlive : e'.lifecycle.live? = e.lifecycle.live?) : Told S e m e'
  | exited {run task exit} (hr : e.lifecycle.run? = some run) (ht : run.stream = some task) :
      Told S e (some .stream) (endStream e run.id (.exited exit))
  | crashed {run task p} (hr : e.lifecycle.run? = some run) (ht : run.stream = some task)
      (hs : task.step S.driver S.collaborators run.cancelled e.now e.shared = .crashed p) :
      Told S e (some .stream) (endStream e run.id .lost)
  | aborted {run task deadline next} (hl : e.lifecycle = .closing run .stream deadline next)
      (ht : run.stream = some task) (hd : deadline ≤ e.now) : Told S e (some .control) (endStream e run.id .lost)
  | spawned {m : Option Move} {e' : Engine χ σ ρ π} (hbefore : e.lifecycle.live? = none)
      (hreports : e'.reports = e.reports ++ [.pending])
      (hlive : e'.lifecycle.live? = some (e.reports.length + 1)) : Told S e m e'

/-- A move that turns to the next task of the run, or begins to close it, leaves its stream task alone. -/
theorem Told.staged {m : Option Move} {run : Run ρ} (hr : e.lifecycle.run? = some run) {run' : Run ρ}
    (hr' : e'.lifecycle.run? = some run') (hid : run'.id = run.id) (hstream : run'.stream = run.stream)
    (hreports : e'.reports = e.reports) : Told S e m e' := by
  refine .same hreports ?_
  rw [Lifecycle.live?_of_run hr, Lifecycle.live?_of_run hr', hid, hstream]

theorem told_change (htidy : Tidy e) (h : Change S e m e') : Told S e (some m) e' := by
  cases h with
  | still => exact .same rfl rfl
  | @streamMoved run task task' shared hr ht hx hs =>
    refine .same rfl (Lifecycle.live?_mapRun (fun _ => rfl) fun run' hr' => ?_)
    rw [hr] at hr'
    cases hr'
    rw [ht]
    rfl
  | streamExited hr ht hx => exact .exited hr ht
  | streamCrashed hr ht hx hs => exact .crashed hr ht hs
  | loopMoved hr hl => exact .same rfl (Lifecycle.live?_mapRun (fun _ => rfl) fun _ _ => rfl)
  | deliveryMoved hr hd => exact .same rfl (Lifecycle.live?_mapRun (fun _ => rfl) fun _ _ => rfl)
  | streamJoined hl hj => exact .staged (Lifecycle.run?_of_closing hl) rfl rfl rfl rfl
  | loopJoined hl hj => exact .staged (Lifecycle.run?_of_closing hl) rfl rfl rfl rfl
  | @deliveryJoined run deadline next hl hj =>
    have hbefore : e.lifecycle.live? = none := by
      rw [Lifecycle.live?_of_run (Lifecycle.run?_of_closing hl), (htidy.ended hl hj).stream]
      rfl
    cases next with
    | stop => exact .same rfl hbefore.symm
    | start height => exact .spawned hbefore rfl rfl
  | @aborted run joining deadline next hl hj hd =>
    cases joining with
    | stream =>
      obtain ⟨task, ht⟩ : ∃ task, run.stream = some task := by simpa [joined, Option.isSome_iff_exists] using hj
      exact .aborted hl ht hd
    | _ => exact .same rfl (Lifecycle.live?_mapRun (fun _ => rfl) fun _ _ => rfl)
  | @spawned m height hl hm =>
    refine .spawned ?_ rfl rfl
    rcases hl with hl | hl <;> rw [hl] <;> rfl
  | replaced hl hf => exact .staged (Lifecycle.run?_of_running hl) rfl rfl rfl rfl
  | restarted hl => exact .staged (Lifecycle.run?_of_running hl) rfl rfl rfl rfl
  | stopped hl => exact .staged (Lifecycle.run?_of_running hl) rfl rfl rfl rfl
  | _ => exact .same rfl rfl

end

/-! ### The report of a run -/

section

variable {e e' : Engine χ σ ρ π} {id id' : Nat}

/-- A run that has begun is pending exactly while its stream task is there. -/
def Pending (e : Engine χ σ ρ π) : Prop :=
  ∀ id, Begun e id → (e.report id = .pending ↔ e.lifecycle.live? = some id)

/-- The run whose stream task is there has begun. -/
theorem Tidy.begun (h : Tidy e) (hlive : e.lifecycle.live? = some id) : Begun e id := by
  obtain ⟨run, hr, hid⟩ := Option.bind_eq_some_iff.mp hlive
  obtain ⟨_, -, rfl⟩ := Option.map_eq_some_iff.mp hid
  obtain ⟨hpos, hlength⟩ := h.numbered run.id (by rw [Engine.runId, hr]; rfl)
  exact ⟨hpos, Nat.le_of_eq hlength⟩

/-- The report of a stream that ends is the report of its run, and of no other. -/
theorem Pending.report_endStream (h : Pending e) (htidy : Tidy e) (hlive : e.lifecycle.live? = some id) (r : Report) :
    (endStream e id r).report id' = if id' = id then r else e.report id' := by
  have hbegun := htidy.begun hlive
  rw [Service.report_endStream]
  by_cases hid : id' = id
  · rw [if_pos hid, if_pos ⟨⟨hid, hbegun⟩, fun _ => (h id hbegun).mpr hlive⟩]
  · rw [if_neg hid, if_neg fun hall => hid hall.1.1]

theorem begun_endStream {r : Report} (hr : r ≠ .pending) : Begun (endStream e id r) id' ↔ Begun e id' := by
  rw [Begun, (Reported.endStream e id hr).length, Begun]

theorem Pending.endStream (h : Pending e) (htidy : Tidy e) (hlive : e.lifecycle.live? = some id) {r : Report}
    (hr : r ≠ .pending) : Pending (endStream e id r) := by
  intro id' hbegun
  rw [h.report_endStream htidy hlive, live?_endStream]
  split
  next => exact ⟨fun hpending => absurd hpending hr, nofun⟩
  next hid =>
    rw [h id' ((begun_endStream hr).mp hbegun), hlive]
    exact ⟨fun heq => absurd (Option.some.inj heq).symm hid, nofun⟩

/-- Where a run begins, the reports of those before stay, and it is pending itself. -/
theorem report_of_append (hreports : e'.reports = e.reports ++ [.pending]) :
    e'.report id = if id ≤ e.reports.length then e.report id else .pending := by
  unfold Engine.report
  rw [hreports, List.getD_eq_getElem?_getD, List.getD_eq_getElem?_getD]
  by_cases hzero : id = 0
  · rw [if_pos hzero, if_pos hzero, ite_self]
  · rw [if_neg hzero, if_neg hzero]
    split
    next hold => rw [List.getElem?_append_left (by omega)]
    next hnew =>
      rw [List.getElem?_append_right (by omega)]
      cases id - 1 - e.reports.length <;> rfl

/-- Nothing but pending is known of a run that has not begun. -/
theorem begun_of_report (h : e.report id ≠ .pending) : Begun e id := by
  unfold Engine.report at h
  split at h
  next => exact absurd rfl h
  next hid =>
    refine ⟨Nat.pos_of_ne_zero hid, Nat.le_of_not_lt fun hlt => h ?_⟩
    rw [List.getD_eq_getElem?_getD, List.getElem?_eq_none (by omega)]
    rfl

theorem Pending.change (h : Pending e) (htidy : Tidy e) {m : Option Move} (htold : Told S e m e') : Pending e' := by
  cases htold with
  | same hreports hlive =>
    intro id hbegun
    rw [Begun, hreports] at hbegun
    rw [Engine.report, hreports, hlive]
    exact h id hbegun
  | exited hr ht => exact h.endStream htidy (Lifecycle.live?_of_task hr ht) (by simp)
  | crashed hr ht hs => exact h.endStream htidy (Lifecycle.live?_of_task hr ht) (by simp)
  | aborted hl ht hd =>
    exact h.endStream htidy (Lifecycle.live?_of_task (Lifecycle.run?_of_closing hl) ht) (by simp)
  | spawned hbefore hreports hlive =>
    rintro id ⟨hpos, hle⟩
    rw [hreports, List.length_append, List.length_singleton] at hle
    rw [report_of_append hreports, hlive]
    split
    next hold =>
      rw [h id ⟨hpos, hold⟩, hbefore]
      simp only [reduceCtorEq, false_iff, Option.some.injEq]
      omega
    next hnew => exact ⟨fun _ => congrArg some (by omega), fun _ => rfl⟩

end

/-! ### All moments -/

namespace History

variable {H : S.History} {shared : Shared χ σ π} {i j id : Nat}

theorem told_next (hbegin : H.engine 0 = .initial shared) (i : Nat) : Told S (H.engine i) (H.move i) (H.engine (i + 1)) := by
  rcases H.change i with ⟨m, hm, hchange⟩ | ⟨-, chain, source, assets, he⟩
  · rw [hm]
    exact told_change (tidy hbegin i) hchange
  · rw [he]
    exact .same rfl rfl

theorem pending (hbegin : H.engine 0 = .initial shared) (i : Nat) : Pending (H.engine i) := by
  induction i with
  | zero =>
    rw [hbegin]
    rintro id ⟨hpos, hle⟩
    exact absurd (Nat.lt_of_lt_of_le hpos hle) (Nat.lt_irrefl 0)
  | succ i ih => exact ih.change (tidy hbegin i) (told_next hbegin i)

/-- A report stands once it is made. -/
theorem report_succ (hbegin : H.engine 0 = .initial shared) (hbegun : Begun (H.engine i) id)
    (hreport : (H.engine i).report id ≠ .pending) :
    Begun (H.engine (i + 1)) id ∧ (H.engine (i + 1)).report id = (H.engine i).report id := by
  have hpending := pending hbegin i
  have htidy := tidy hbegin i
  have htold := told_next hbegin i
  -- only the run that is pending can be reported
  have hended : ∀ {id' : Nat} {r : Report}, r ≠ .pending → (H.engine i).lifecycle.live? = some id' →
      Begun (endStream (H.engine i) id' r) id ∧ (endStream (H.engine i) id' r).report id = (H.engine i).report id := by
    intro id' r hr hlive
    refine ⟨(begun_endStream hr).mpr hbegun, ?_⟩
    rw [hpending.report_endStream htidy hlive, if_neg]
    rintro rfl
    exact hreport ((hpending id hbegun).mpr hlive)
  generalize H.engine (i + 1) = e', H.move i = m at htold
  cases htold with
  | same hreports hlive =>
    rw [Begun, Engine.report, hreports]
    exact ⟨hbegun, rfl⟩
  | exited hr ht => exact hended (by simp) (Lifecycle.live?_of_task hr ht)
  | crashed hr ht hs => exact hended (by simp) (Lifecycle.live?_of_task hr ht)
  | aborted hl ht hd =>
    exact hended (by simp) (Lifecycle.live?_of_task (Lifecycle.run?_of_closing hl) ht)
  | spawned hbefore hreports hlive =>
    rw [report_of_append hreports, if_pos hbegun.2, Begun, hreports, List.length_append]
    exact ⟨⟨hbegun.1, Nat.le_add_right_of_le hbegun.2⟩, rfl⟩

theorem report_later (hbegin : H.engine 0 = .initial shared) (hbegun : Begun (H.engine i) id)
    (hreport : (H.engine i).report id ≠ .pending) (hij : i ≤ j) :
    Begun (H.engine j) id ∧ (H.engine j).report id = (H.engine i).report id := by
  induction hij with
  | refl => exact ⟨hbegun, rfl⟩
  | step _ ih =>
    obtain ⟨hbegun', hsame⟩ := ih
    obtain ⟨hbegun'', hsame'⟩ := report_succ hbegin hbegun' (hsame ▸ hreport)
    exact ⟨hbegun'', hsame'.trans hsame⟩

/-- The stream task of the run ends without a report: it is aborted because it did not end in time, or calling a
handler panics in it. -/
inductive Dies (H : S.History) (i id : Nat) : Prop where
  | aborted {run task deadline next} (hm : H.move i = some .control)
      (hl : (H.engine i).lifecycle = .closing run .stream deadline next) (hid : run.id = id)
      (ht : run.stream = some task) (hd : deadline ≤ (H.engine i).now)
  | crashed {run task p} (hm : H.move i = some .stream) (hr : (H.engine i).lifecycle.run? = some run)
      (hid : run.id = id) (ht : run.stream = some task)
      (hs : task.step S.driver S.collaborators run.cancelled (H.engine i).now (H.past i) = .crashed p)

/-- The stream task of the run has ended without a report. -/
def Died (H : S.History) (now id : Nat) : Prop := ∃ i < now, H.Dies i id

theorem Dies.ended (h : H.Dies i id) :
    (H.engine i).lifecycle.live? = some id ∧ H.engine (i + 1) = endStream (H.engine i) id .lost := by
  cases h with
  | @aborted run task deadline next hm hl hid ht hd =>
    subst hid
    refine ⟨Lifecycle.live?_of_task (Lifecycle.run?_of_closing hl) ht, ?_⟩
    have hjoined : joined run .stream = false := by rw [joined, ht]; rfl
    rw [H.applied hm]
    simp only [apply, controlStep, hl, hjoined, hd, Bool.false_eq_true, if_false, if_true, Option.getD_some, abort]
  | @crashed run task p hm hr hid ht hs =>
    subst hid
    refine ⟨Lifecycle.live?_of_task hr ht, ?_⟩
    have hexit : task.exit? = none := by
      unfold Stream.Task.exit?
      split
      next exit hphase => simp only [Stream.Task.step, hphase] at hs; cases hs
      next => rfl
    have hs : task.step S.driver S.collaborators run.cancelled (H.engine i).now (H.engine i).shared = .crashed p := hs
    rw [H.applied hm]
    simp only [apply, streamStep, hr, ht, hexit, hs, Option.bind_eq_bind, Option.bind_some, Option.getD_some]

theorem Died.later (h : H.Died i id) : H.Died (i + 1) id := by
  obtain ⟨k, hk, hdies⟩ := h
  exact ⟨k, Nat.lt_succ_of_lt hk, hdies⟩

theorem died_of_lost (hbegin : H.engine 0 = .initial shared) (i : Nat) :
    ∀ id, (H.engine i).report id = .lost → H.Died i id := by
  induction i with
  | zero =>
    intro id hlost
    have hreport : (H.engine 0).report id ≠ .pending := by
      rw [hlost]
      exact nofun
    obtain ⟨hpos, hle⟩ := begun_of_report hreport
    rw [hbegin] at hle
    exact absurd (Nat.lt_of_lt_of_le hpos hle) (Nat.lt_irrefl 0)
  | succ i ih =>
    intro id hlost
    have hpending := pending hbegin i
    have htidy := tidy hbegin i
    have htold := told_next hbegin i
    -- the stream that ends now is that of the run, or the run was lost before
    have hended : ∀ {id' : Nat} {r : Report}, (H.engine i).lifecycle.live? = some id' →
        (endStream (H.engine i) id' r).report id = .lost → (id' = id ∧ r = .lost) ∨ H.Died i id := by
      intro id' r hlive hreport
      rw [hpending.report_endStream htidy hlive] at hreport
      split at hreport
      next hid => exact .inl ⟨hid.symm, hreport⟩
      next => exact .inr (ih id hreport)
    generalize he : H.engine (i + 1) = e', hm : H.move i = m at htold
    rw [he] at hlost
    cases htold with
    | same hreports hlive =>
      rw [Engine.report, hreports] at hlost
      exact (ih id hlost).later
    | exited hr ht =>
      rcases hended (Lifecycle.live?_of_task hr ht) hlost with ⟨-, hr⟩ | hdied
      · cases hr
      · exact hdied.later
    | crashed hr ht hs =>
      rcases hended (Lifecycle.live?_of_task hr ht) hlost with ⟨hid, -⟩ | hdied
      · exact ⟨i, Nat.lt_succ_self i, .crashed hm hr hid ht hs⟩
      · exact hdied.later
    | aborted hl ht hd =>
      rcases hended (Lifecycle.live?_of_task (Lifecycle.run?_of_closing hl) ht) hlost with ⟨hid, -⟩ | hdied
      · exact ⟨i, Nat.lt_succ_self i, .aborted hm hl hid ht hd⟩
      · exact hdied.later
    | spawned hbefore hreports hlive =>
      rw [report_of_append hreports] at hlost
      split at hlost
      next => exact (ih id hlost).later
      next => cases hlost

/-- A run is lost if its stream task has ended without a report, and in no other way. -/
theorem lost_iff (hbegin : H.engine 0 = .initial shared) : (H.engine i).report id = .lost ↔ H.Died i id := by
  refine ⟨died_of_lost hbegin i id, fun ⟨k, hk, hdies⟩ => ?_⟩
  obtain ⟨hlive, he⟩ := hdies.ended
  have htidy := tidy hbegin k
  have hlost : (H.engine (k + 1)).report id = .lost := by
    rw [he, (pending hbegin k).report_endStream htidy hlive, if_pos rfl]
  have hbegun : Begun (H.engine (k + 1)) id := by
    rw [he]
    exact (begun_endStream (r := .lost) nofun).mpr (htidy.begun hlive)
  have hreport : (H.engine (k + 1)).report id ≠ .pending := by
    rw [hlost]
    exact nofun
  exact (report_later hbegin hbegun hreport hk).2.trans hlost

/-- A run that has ended is not pending. -/
theorem Ends.reported (hbegin : H.engine 0 = .initial shared) (h : H.Ends i id) :
    Begun (H.engine i) id ∧ (H.engine i).report id ≠ .pending := by
  obtain ⟨run, hr, rfl, hended⟩ := h.tasks hbegin
  obtain ⟨hpos, hlength⟩ := (tidy hbegin i).numbered run.id h.before
  have hbegun : Begun (H.engine i) run.id := ⟨hpos, Nat.le_of_eq hlength⟩
  refine ⟨hbegun, fun hpending => ?_⟩
  have hlive := (pending hbegin i run.id hbegun).mp hpending
  rw [Lifecycle.live?_of_run hr, hended.stream] at hlive
  cases hlive

end History

/-! ### Both observers -/

/-- How the end of a run looks to whoever holds it. -/
structure Apparent (H : S.History) : Prop where
  /-- Once a call that closes a run has returned, waiting for the run gives an answer at once. -/
  awaited : ∀ {m i j id k}, H.Shuts m i j id → j ≤ k → ((H.engine k).report id).awaited.isSome = true
  /-- From then on the run says that it is finished, unless its stream task ended without a report. -/
  finished : ∀ {m i j id k}, H.Shuts m i j id → j ≤ k → (((H.engine k).report id).isFinished = true ↔ ¬ H.Died j id)
  /-- At any moment the run says that it is finished exactly when waiting for it gives an answer at once, unless its
  stream task has ended without a report. -/
  agree : ∀ {i id}, (((H.engine i).report id).isFinished = true ↔ ((H.engine i).report id).awaited.isSome = true) ↔
    ¬ H.Died i id

theorem Report.isFinished_iff {r : Report} (h : r ≠ .pending) : r.isFinished = true ↔ r ≠ .lost := by
  cases r with
  | pending => exact absurd rfl h
  | exited exit => exact ⟨nofun, fun _ => rfl⟩
  | lost => exact ⟨nofun, fun hlost => absurd rfl hlost⟩

theorem Report.agrees_iff {r : Report} : (r.isFinished = true ↔ r.awaited.isSome = true) ↔ r ≠ .lost := by
  cases r with
  | pending => exact ⟨nofun, fun _ => ⟨nofun, nofun⟩⟩
  | exited exit => exact ⟨nofun, fun _ => ⟨fun _ => rfl, fun _ => rfl⟩⟩
  | lost => exact ⟨fun h => absurd (h.mpr rfl) nofun, fun hlost => absurd rfl hlost⟩

/-- **A run that is over looks over**, unless its stream task ended without a report. -/
theorem History.endings_apparent {H : S.History} {shared : Shared χ σ π} (hbegin : H.engine 0 = .initial shared) :
    Apparent H := by
  have hreported : ∀ {m i j id k}, H.Shuts m i j id → j ≤ k →
      (H.engine k).report id = (H.engine j).report id ∧ (H.engine j).report id ≠ .pending := by
    intro m i j id k hshuts hjk
    obtain ⟨j, rfl, hends⟩ := hshuts.ends hbegin
    obtain ⟨hbegun, hreport⟩ := hends.reported hbegin
    obtain ⟨-, hj⟩ := report_later hbegin hbegun hreport (Nat.le_succ j)
    obtain ⟨-, hk⟩ := report_later hbegin hbegun hreport (Nat.le_of_succ_le hjk)
    exact ⟨hk.trans hj.symm, hj ▸ hreport⟩
  refine ⟨fun hshuts hjk => ?_, fun hshuts hjk => ?_, Report.agrees_iff.trans (not_congr (lost_iff hbegin))⟩
  · obtain ⟨hsame, hreport⟩ := hreported hshuts hjk
    rw [hsame]
    generalize (H.engine _).report _ = r at hreport
    cases r with
    | pending => exact absurd rfl hreport
    | _ => rfl
  · obtain ⟨hsame, hreport⟩ := hreported hshuts hjk
    rw [hsame, Report.isFinished_iff hreport]
    exact not_congr (lost_iff hbegin)

namespace Sample

/-- The first run of the sample calls is over when the stop returns, and looks over. -/
theorem stopped_apparent :
    (service.history start calls).engine 0 = .initial start.shared ∧ Apparent (service.history start calls) ∧
      (service.history start calls).Shuts .stop 2 14 1 ∧
      (((service.history start calls).engine 14).report 1).isFinished = true := by
  have hbegin : (service.history start calls).engine 0 = .initial start.shared := rfl
  have hmeanwhile : ∀ k < 14, 2 < k → ((service.history start calls).engine k).standing.isClosing = true := by decide
  have hshuts : (service.history start calls).Shuts .stop 2 14 1 :=
    { made := rfl
      free := rfl
      later := by decide
      meanwhile := fun k hlt hk => hmeanwhile k hk hlt
      returned := rfl
      running := rfl
      closes := ⟨.stop, .stop⟩ }
  exact ⟨hbegin, History.endings_apparent hbegin, hshuts, rfl⟩

/-- The sample service with a handler that hangs. -/
def hanging : Service Chain.Ledger Stream.Script Stream.Feed Asset.Fixed :=
  { service with
    driver.router.registry := Handler.Registry.empty.register .onboardAsset (Handler.ofActivity fun _ => .hang) }

/-- The stream task hands the event to its handler, the service is stopped, and the timeout passes. -/
def overrun : List (Happening Stream.Script Asset.Fixed) :=
  ([.start none, .stream, .stream, .stream, .stream, .stream, .stop, .tick 5000, .control, .control, .submitter,
    .submitter, .control, .delivery, .delivery, .delivery, .delivery, .control] : List Move).map .move

/-- The stop returns, and waiting for the run gives its exit at once; but the run never says that it is finished. -/
theorem overrun_unfinished :
    (hanging.history start overrun).Shuts .stop 6 18 1 ∧
      (((hanging.history start overrun).engine 18).report 1).awaited = some .lost ∧
      (((hanging.history start overrun).engine 18).report 1).isFinished = false := by
  have hmeanwhile : ∀ k < 18, 6 < k → ((hanging.history start overrun).engine k).standing.isClosing = true := by decide
  refine ⟨?_, rfl, rfl⟩
  exact
    { made := rfl
      free := rfl
      later := by decide
      meanwhile := fun k hlt hk => hmeanwhile k hk hlt
      returned := rfl
      running := rfl
      closes := ⟨.stop, .stop⟩ }

end Sample

end Attestor.Service
