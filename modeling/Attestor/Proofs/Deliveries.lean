import Attestor.Proofs.Calls

/-!
Deliveries of diagnostics. Whatever the consumer does with them, the diagnostics that were handed to it and those
that wait are the published ones, in order. When a run is closed its delivery drains last: at the moment at which
it finds nothing more, the other tasks have ended, so whatever they published has been handed over
(`History.deliveries_complete`). What others publish meanwhile may be left to the next run.
-/

namespace Attestor

namespace Service

variable {χ σ ρ π : Type} {S : Service χ σ ρ π}

/-! ### One move -/

section

variable {e e' : Engine χ σ ρ π} {m : Move}

/-- What was handed over is what was taken from the queue. -/
theorem delivered_change (h : Change S e m e') (hdelivered : e.delivered = e.shared.diagnostics.history) :
    e'.delivered = e'.shared.diagnostics.history := by
  cases shared_change h with
  | added hs hd => rw [hd, hdelivered, hs.diagnostics.history]
  | consumed hl hd => rw [hd, hdelivered, hl.tells.diagnostics.history]
  | delivered hp hs =>
    rw [hs]
    exact hp.history hdelivered
  | @finished _ run deadline next hl hj he =>
    rw [he]
    cases next <;> exact hdelivered
  | @aborted _ run deadline next hl hj hd he =>
    rw [he, abort, Submission.Loop.abort_eq]
    exact hdelivered

/-- Nothing that was handed over is taken back. -/
theorem delivered_prefix (h : Change S e m e') : e.delivered <+: e'.delivered := by
  cases shared_change h with
  | added hs hd => exact hd ▸ List.prefix_refl _
  | consumed hl hd => exact hd ▸ List.prefix_refl _
  | delivered hp hs =>
    generalize e'.delivered = delivered' at hp ⊢
    cases hp with
    | handed hp hq hn => exact List.prefix_append _ _
    | _ => exact List.prefix_refl _
  | @finished _ run deadline next hl hj he =>
    rw [he]
    cases next <;> exact List.prefix_refl _
  | @aborted _ run deadline next hl hj hd he =>
    rw [he]
    exact List.prefix_refl _

/-- A delivery is over because it was, or because it drains and nothing waits, or because it is aborted. -/
theorem over_change (h : Change S e m e') {run' : Run ρ} (hr' : e'.lifecycle.run? = some run')
    (hover : run'.delivery = .over) :
    (∃ run, e.lifecycle.run? = some run ∧ run.id = run'.id ∧ run.delivery = .over) ∨
      (m = .delivery ∧ e.shared.diagnostics.items = []) ∨ aborts e m = true := by
  rcases run_change h hr' with ⟨run, hr, hrun⟩ | ⟨height, rfl, -⟩
  · cases hrun with
    | kept hid hstream hloop hdelivery hreports => exact .inl ⟨run, hr, hid.symm, hdelivery.symm.trans hover⟩
    | streamMoved ht hx hs hreports => exact .inl ⟨run, hr, rfl, hover⟩
    | streamExited ht hx => exact .inl ⟨run, hr, rfl, hover⟩
    | streamCrashed ht hx hs => exact .inl ⟨run, hr, rfl, hover⟩
    | loopMoved hl hreports => exact .inl ⟨run, hr, rfl, hover⟩
    | deliveryMoved hd hreports =>
      dsimp only at hover
      subst hover
      exact .inr (.inl ⟨rfl, hd.of_over⟩)
    | aborted haborts => exact .inr (.inr haborts)
  · cases hover

/-- Once the delivery of a run is over, its stream and its loop do nothing any more. -/
theorem apply_of_over (htidy : Tidy e) {run : Run ρ} (hr : e.lifecycle.run? = some run)
    (hover : run.delivery = .over) (hm : m = .stream ∨ m = .submitter) : S.apply e m = e := by
  have hended : run.stream = none ∧ run.loop = .over := by
    have hstaged := htidy.staged
    cases hl : e.lifecycle with
    | running run' =>
      rw [hl] at hr hstaged
      cases hr
      exact absurd hover hstaged.delivery.2
    | closing run' joining deadline next =>
      rw [hl] at hr hstaged
      cases hr
      cases joining with
      | stream => exact absurd hover hstaged.delivery.2
      | submitter => exact absurd hover hstaged.2.delivery.2
      | delivery => exact ⟨hstaged.1, hstaged.2.1⟩
    | _ =>
      rw [hl] at hr
      cases hr
  rcases hm with rfl | rfl
  · simp [apply, streamStep, hr, hended.1]
  · simp [apply, submitterStep, hr, hended.2, Submission.Loop.step, Progress.next?]

end

/-! ### All moments -/

namespace History

variable {H : S.History} {chain : χ} {source : σ} {assets : π} {i j id : Nat}

theorem delivered_eq (hbegin : H.engine 0 = .initial (.initial chain source assets)) (i : Nat) :
    (H.engine i).delivered = (H.past i).diagnostics.history := by
  induction i with
  | zero =>
    rw [past, hbegin]
    rfl
  | succ i ih =>
    rcases H.change i with ⟨m, -, hchange⟩ | ⟨-, chain, source, assets, he⟩
    · exact delivered_change hchange ih
    · rw [past, he]
      exact ih

theorem delivered_succ (i : Nat) : (H.engine i).delivered <+: (H.engine (i + 1)).delivered := by
  rcases H.change i with ⟨m, -, hchange⟩ | ⟨-, chain, source, assets, he⟩
  · exact delivered_prefix hchange
  · have hsame : (H.engine (i + 1)).delivered = (H.engine i).delivered := by rw [he]
    exact hsame ▸ List.prefix_refl _

/-- A run whose delivery is over has nothing left to hand over of what its stream and its loop have published. -/
theorem drained (htimely : H.Timely) (hbegin : H.engine 0 = .initial (.initial chain source assets)) (i : Nat) :
    ∀ run, (H.engine i).lifecycle.run? = some run → run.delivery = .over →
      ∀ k < i, H.move k = some .stream ∨ H.move k = some .submitter → (H.engine k).runId = some run.id →
        H.news k ≠ [] → (H.past (k + 1)).diagnostics.log <+: (H.engine i).delivered := by
  induction i with
  | zero =>
    intro run hr
    rw [hbegin] at hr
    cases hr
  | succ i ih =>
    intro run' hr' hover k hk hm hid hnews
    have hcases : (∃ run, (H.engine i).lifecycle.run? = some run ∧ run.id = run'.id ∧ run.delivery = .over) ∨
        (H.move i = some .delivery ∧ (H.past i).diagnostics.items = []) := by
      rcases H.change i with ⟨m, hmove, hchange⟩ | ⟨-, chain, source, assets, he⟩
      · rcases over_change hchange hr' hover with h | ⟨rfl, hitems⟩ | haborts
        · exact .inl h
        · exact .inr ⟨hmove, hitems⟩
        · rw [htimely i m hmove] at haborts
          cases haborts
      · rw [he] at hr'
        exact .inl ⟨run', hr', rfl, hover⟩
    rcases hcases with ⟨run, hr, hrun, hover'⟩ | ⟨hmove, hitems⟩
    · obtain rfl | hlt := Nat.eq_or_lt_of_le (Nat.le_of_lt_succ hk)
      · -- the run had nothing left that could publish
        have hstill : H.engine (k + 1) = H.engine k := by
          rcases hm with hm | hm
          · exact (H.applied hm).trans (apply_of_over (tidy hbegin k) hr hover' (.inl rfl))
          · exact (H.applied hm).trans (apply_of_over (tidy hbegin k) hr hover' (.inr rfl))
        exact absurd (H.news_of_eq hstill) hnews
      · exact (ih run hr hover' k hlt hm (by rw [hrun]; exact hid) hnews).trans (delivered_succ i)
    · have hall : (H.engine i).delivered = (H.past i).diagnostics.log := by
        rw [delivered_eq hbegin i, ← Queue.history_append_items, hitems, List.append_nil]
      obtain rfl | hlt := Nat.eq_or_lt_of_le (Nat.le_of_lt_succ hk)
      · rcases hm with hm | hm <;> rw [hmove] at hm <;> cases hm
      · have hlog : (H.past (k + 1)).diagnostics.log <+: (H.past i).diagnostics.log := log_later hlt
        rw [← hall] at hlog
        exact hlog.trans (delivered_succ i)

/-! ### The exit of a run -/

/-- The stream task of the run has announced its exit. -/
def Announced (H : S.History) (now id : Nat) (exit : Stream.Exit) : Prop :=
  ∃ k < now, H.move k = some .stream ∧ (H.engine k).runId = some id ∧ .exited exit ∈ H.news k

/-- The stream task of the run has panicked. -/
def Crashed (H : S.History) (now id : Nat) : Prop :=
  ∃ k < now, H.move k = some .stream ∧ ∃ run task p, (H.engine k).lifecycle.run? = some run ∧ run.id = id ∧
    run.stream = some task ∧
    task.step S.driver S.collaborators run.cancelled (H.engine k).now (H.past k) = .crashed p

/-- What is known of a run is what its stream task has announced. -/
structure Reports (H : S.History) (now : Nat) (run : Run ρ) : Prop where
  task : ∀ task exit, run.stream = some task → task.exit? = some exit → H.Announced now run.id exit
  exited : ∀ exit, (H.engine now).report run.id = .exited exit → H.Announced now run.id exit
  lost : (H.engine now).report run.id = .lost → H.Crashed now run.id
  pending : run.stream = none → (H.engine now).report run.id ≠ .pending

theorem Announced.later {exit : Stream.Exit} (h : H.Announced i id exit) : H.Announced (i + 1) id exit := by
  obtain ⟨k, hk, hrest⟩ := h
  exact ⟨k, Nat.lt_succ_of_lt hk, hrest⟩

theorem Crashed.later (h : H.Crashed i id) : H.Crashed (i + 1) id := by
  obtain ⟨k, hk, hrest⟩ := h
  exact ⟨k, Nat.lt_succ_of_lt hk, hrest⟩

/-- A run whose stream task and whose report are as before. -/
theorem Reports.keep {run run' : Run ρ} (h : H.Reports i run) (hid : run'.id = run.id)
    (hstream : run'.stream = run.stream) (hreports : (H.engine (i + 1)).reports = (H.engine i).reports) :
    H.Reports (i + 1) run' := by
  have hreport : (H.engine (i + 1)).report run'.id = (H.engine i).report run.id := by
    unfold Engine.report
    rw [hreports, hid]
  refine ⟨?_, ?_, ?_, ?_⟩
  · rw [hstream, hid]
    exact fun task exit ht hx => (h.task task exit ht hx).later
  · rw [hreport, hid]
    exact fun exit hexit => (h.exited exit hexit).later
  · rw [hreport, hid]
    exact fun hlost => (h.lost hlost).later
  · rw [hstream, hreport]
    exact h.pending

/-- The stream task makes a step; if it is about to report its exit, it has announced it now. -/
theorem Reports.streamMoved {run : Run ρ} (h : H.Reports i run) (hid : (H.engine i).runId = some run.id)
    (hm : H.move i = some .stream) {task task' : Stream.Task ρ}
    (hs : task.step S.driver S.collaborators run.cancelled (H.engine i).now (H.past i) =
      .moved (task', H.past (i + 1)))
    (hreports : (H.engine (i + 1)).reports = (H.engine i).reports) :
    H.Reports (i + 1) { run with stream := some task' } where
  task task'' exit ht hx := by
    obtain rfl := Option.some.inj ht
    have hpublished := (Stream.Task.step_change hs).announces hx
    refine ⟨i, Nat.lt_succ_self i, hm, hid, ?_⟩
    rw [news, hpublished, Shared.publish, Queue.log_publish, List.drop_left]
    exact List.mem_singleton_self _
  exited exit hexit := by
    rw [Engine.report, hreports] at hexit
    exact (h.exited exit hexit).later
  lost hlost := by
    rw [Engine.report, hreports] at hlost
    exact (h.lost hlost).later
  pending := nofun

/-- The stream task reports the exit that it has announced. -/
theorem Reports.streamExited {run : Run ρ} (h : H.Reports i run) {task : Stream.Task ρ} {exit : Stream.Exit}
    (ht : run.stream = some task) (hx : task.exit? = some exit)
    (hreport : (H.engine (i + 1)).report run.id = .exited exit) :
    H.Reports (i + 1) { run with stream := none } where
  task _ _ ht := by cases ht
  exited exit' hexit := by
    cases hreport.symm.trans hexit
    exact (h.task task exit ht hx).later
  lost hlost := by cases hreport.symm.trans hlost
  pending _ hpending := by cases hreport.symm.trans hpending

/-- The stream task panics; its run is lost, unless it has reported. -/
theorem Reports.streamCrashed {run : Run ρ} (h : H.Reports i run) (hcrashed : H.Crashed (i + 1) run.id)
    (hreport : (H.engine (i + 1)).report run.id = .lost ∨
      (H.engine (i + 1)).report run.id = (H.engine i).report run.id ∧ (H.engine i).report run.id ≠ .pending) :
    H.Reports (i + 1) { run with stream := none } where
  task _ _ ht := by cases ht
  exited exit hexit := by
    rcases hreport with hlost | ⟨hsame, -⟩
    · cases hlost.symm.trans hexit
    · exact (h.exited exit (hsame.symm.trans hexit)).later
  lost _ := hcrashed
  pending _ hpending := by
    rcases hreport with hlost | ⟨hsame, hnot⟩
    · cases hlost.symm.trans hpending
    · exact hnot (hsame.symm.trans hpending)

/-- Nothing is known yet of a run that begins. -/
theorem Reports.begun {height : Option Chain.Height}
    (hreports : (H.engine (i + 1)).reports = (H.engine i).reports ++ [.pending]) :
    H.Reports (i + 1) (.begin ((H.engine i).reports.length + 1) height) := by
  have hreport : (H.engine (i + 1)).report ((H.engine i).reports.length + 1) = .pending := by
    rw [Engine.report, if_neg (Nat.succ_ne_zero _), hreports]
    simp
  refine ⟨fun task exit ht hx => ?_, fun exit hexit => ?_, fun hlost => ?_,
    fun hnone => absurd hnone (Option.some_ne_none _)⟩
  · obtain rfl := Option.some.inj ht
    cases hx
  · cases hreport.symm.trans hexit
  · cases hreport.symm.trans hlost

theorem Reports.step (htimely : H.Timely) (hbegin : H.engine 0 = .initial (.initial chain source assets))
    (ih : ∀ run, (H.engine i).lifecycle.run? = some run → H.Reports i run) {m : Move} (hm : H.move i = some m)
    (hchange : Change S (H.engine i) m (H.engine (i + 1))) {run' : Run ρ}
    (hr' : (H.engine (i + 1)).lifecycle.run? = some run') : H.Reports (i + 1) run' := by
  rcases run_change hchange hr' with ⟨run, hr, hrun⟩ | ⟨height, rfl, hreports⟩
  · have hid : (H.engine i).runId = some run.id := by rw [Engine.runId, hr]; rfl
    obtain ⟨hpos, hlength⟩ := (tidy hbegin i).numbered run.id hid
    have h := ih run hr
    generalize he : H.engine (i + 1) = e' at hrun
    cases hrun with
    | kept hid hstream hloop hdelivery hreports => exact h.keep hid hstream (he ▸ hreports)
    | streamMoved ht hx hs hreports =>
      subst he
      exact h.streamMoved hid hm hs hreports
    | streamExited ht hx =>
      refine h.streamExited ht hx ?_
      rw [he, report_endStream, if_pos ⟨⟨rfl, hpos, Nat.le_of_eq hlength⟩, fun hpending => by cases hpending⟩]
    | @streamCrashed task p ht hx hs =>
      refine h.streamCrashed ⟨i, Nat.lt_succ_self i, hm, run, task, p, hr, rfl, ht, hs⟩ ?_
      rw [he, report_endStream]
      split
      next => exact .inl rfl
      next hnot =>
        exact .inr ⟨rfl, fun hpending => hnot ⟨⟨rfl, hpos, Nat.le_of_eq hlength⟩, fun _ => hpending⟩⟩
    | loopMoved hl hreports => exact h.keep rfl rfl (he ▸ hreports)
    | deliveryMoved hd hreports => exact h.keep rfl rfl (he ▸ hreports)
    | aborted haborts =>
      rw [htimely i _ hm] at haborts
      cases haborts
  · exact .begun hreports

/-- What is known of the current run is at any moment what its stream task has announced. -/
theorem reports (htimely : H.Timely) (hbegin : H.engine 0 = .initial (.initial chain source assets)) (i : Nat) :
    ∀ run, (H.engine i).lifecycle.run? = some run → H.Reports i run := by
  induction i with
  | zero =>
    intro run hr
    rw [hbegin] at hr
    cases hr
  | succ i ih =>
    intro run' hr'
    rcases H.change i with ⟨m, hm, hchange⟩ | ⟨-, chain, source, assets, he⟩
    · exact .step htimely hbegin ih hm hchange hr'
    · rw [he] at hr'
      exact (ih run' hr').keep rfl rfl (by rw [he])

end History

/-! ### Every diagnostic is delivered -/

/-- The diagnostics are handed over in order, and those of a run before the call that closes it returns. -/
structure Delivered (H : S.History) : Prop where
  /-- What was handed to the consumer, and then what waits, is what was published. -/
  inOrder : ∀ i, (H.engine i).delivered ++ (H.past i).diagnostics.items = (H.past i).diagnostics.log
  /-- When a call that closes a run returns, whatever the stream and the loop of the run have published has been
  handed over, with all that was published before. -/
  complete : ∀ {m i j id k}, H.Shuts m i j id → k < j → H.move k = some .stream ∨ H.move k = some .submitter →
    (H.engine k).runId = some id → H.news k ≠ [] → (H.past (k + 1)).diagnostics.log <+: (H.engine j).delivered
  /-- The exit of the run is among that, unless its stream task panicked and announced none. -/
  exit : ∀ {m i j id}, H.Shuts m i j id →
    (∃ exit, (H.engine j).report id = .exited exit ∧ .exited exit ∈ (H.engine j).delivered) ∨
      (H.engine j).report id = .lost ∧ H.Crashed j id

namespace History

variable {H : S.History} {chain : χ} {source : σ} {assets : π}

/-- What is known of a run stays known when the run ends. -/
theorem Ends.report (hbegin : H.engine 0 = .initial (.initial chain source assets)) {j id : Nat}
    (h : H.Ends j id) : (H.engine (j + 1)).report id = (H.engine j).report id := by
  obtain ⟨-, hlength⟩ := (tidy hbegin j).numbered id h.before
  obtain ⟨run, deadline, next, -, -, -, -, he⟩ := h.finished
  rw [he]
  cases next with
  | stop => rfl
  | start height => exact report_spawn _ height (Nat.le_of_eq hlength)

/-- **Every diagnostic is delivered once, in order, and in time.** Whatever is published and whatever the consumer
does, and where no task is aborted. -/
theorem deliveries_complete (hbegin : H.engine 0 = .initial (.initial chain source assets))
    (htimely : H.Timely) : Delivered H := by
  have hcomplete : ∀ {m i j id k}, H.Shuts m i j id → k < j → H.move k = some .stream ∨ H.move k = some .submitter →
      (H.engine k).runId = some id → H.news k ≠ [] →
      (H.past (k + 1)).diagnostics.log <+: (H.engine j).delivered := by
    intro m i j id k hshuts hk hm hid hnews
    obtain ⟨j, rfl, hends⟩ := hshuts.ends hbegin
    obtain ⟨run, deadline, next, hl, rfl, hover, hmove, -⟩ := hends.finished
    have hr : (H.engine j).lifecycle.run? = some run := by rw [hl]; rfl
    obtain rfl | hlt := Nat.eq_or_lt_of_le (Nat.le_of_lt_succ hk)
    · rcases hm with hm | hm <;> rw [hmove] at hm <;> cases hm
    · exact (drained htimely hbegin j run hr hover k hlt hm hid hnews).trans (delivered_succ j)
  refine ⟨fun i => ?_, hcomplete, fun {m i j id} hshuts => ?_⟩
  · rw [delivered_eq hbegin i]
    exact Queue.history_append_items _
  · obtain ⟨j, rfl, hends⟩ := hshuts.ends hbegin
    obtain ⟨run, hr, rfl, hended⟩ := hends.tasks hbegin
    have hreports := reports htimely hbegin j run hr
    rw [hends.report hbegin]
    cases hreport : (H.engine j).report run.id with
    | pending => exact absurd hreport (hreports.pending hended.stream)
    | lost => exact .inr ⟨rfl, (hreports.lost hreport).later⟩
    | exited exit =>
      obtain ⟨k, hk, hm, hid, hmem⟩ := hreports.exited exit hreport
      have hprefix := hcomplete hshuts (Nat.lt_succ_of_lt hk) (.inl hm) hid (List.ne_nil_of_mem hmem)
      rw [H.log_succ] at hprefix
      exact .inl ⟨exit, rfl, hprefix.subset (List.mem_append_right _ hmem)⟩

end History

/-! ### A consumer that panics -/

namespace Sample

/-- The sample service with a consumer that panics whatever it is given. -/
def panicking : Service Chain.Ledger Stream.Script Stream.Feed Asset.Fixed :=
  { service with consumer := ⟨fun _ _ => .panicked⟩ }

/-- When the stop returns, the exit of the first run has been handed to the consumer. -/
theorem exit_delivered :
    (panicking.history start calls).Timely ∧ Delivered (panicking.history start calls) ∧
      (panicking.history start calls).Shuts .stop 2 14 1 ∧
      ((panicking.history start calls).engine 14).delivered = [.exited ⟨some 5, .cancelled⟩] := by
  have htimely : (panicking.history start calls).Timely := timely_history (by decide)
  have hbegin : (panicking.history start calls).engine 0 = .initial (.initial ledger script .approving) := rfl
  have hdelivered : Delivered (panicking.history start calls) := History.deliveries_complete hbegin htimely
  have hmeanwhile : ∀ k < 14, 2 < k →
      ((panicking.history start calls).engine k).standing.isClosing = true := by decide
  have hshuts : (panicking.history start calls).Shuts .stop 2 14 1 :=
    { made := rfl
      free := rfl
      later := by decide
      meanwhile := fun k hlt hk => hmeanwhile k hk hlt
      returned := rfl
      running := rfl
      closes := ⟨.stop, .stop⟩ }
  exact ⟨htimely, hdelivered, hshuts, rfl⟩

end Sample

end Service

end Attestor
