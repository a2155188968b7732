import Attestor.Proofs.Runs
import Attestor.Proofs.Solicitation

/-!
Calls on an engine. Calls exclude each other: a call that is made while another one closes a run does nothing here,
for it waits. Whatever the tasks do in between, the runs follow one another: a run begins only after all tasks of the
one before have ended, with a number of its own (`Lawful.succession`, `Lawful.ascending`); what a call comes to depends
on nothing but how the engine stood when it was made and whether the run had reported its exit; and a cached
sequence is forgotten at the end of a run and at no other time (`calls_lawful`).
-/

namespace Attestor.Service

variable {χ σ ρ π : Type} {S : Service χ σ ρ π}

/-! ### What a call does at once -/

section

variable {e : Engine χ σ ρ π} {m : Move} {height : Option Chain.Height}

theorem apply_of_closes {run : Run ρ} {next : Afterwards} (hl : e.lifecycle = .running run)
    (h : Closes e run.id m next) : S.apply e m = S.close e run next := by
  cases h with
  | stop => simp only [apply, stop, hl]
  | restart => simp only [apply, restart, hl]
  | replace hf => simp only [apply, start, hl, hf, if_true]

theorem apply_of_resting (hl : e.standing.run? = none) (hm : m = .start height ∨ m = .restart height) :
    S.apply e m = e.spawn height := by
  unfold Engine.standing at hl
  rcases hm with rfl | rfl
  · cases hlife : e.lifecycle with
    | idle => simp only [apply, start, hlife]
    | stopped => simp only [apply, start, hlife]
    | _ => rw [hlife] at hl; cases hl
  · cases hlife : e.lifecycle with
    | idle => simp only [apply, restart, hlife]
    | stopped => simp only [apply, restart, hlife]
    | _ => rw [hlife] at hl; cases hl

/-- Starting an engine that runs changes nothing. -/
theorem apply_start_of_isRunning (h : e.isRunning = true) : S.apply e (.start height) = e := by
  unfold Engine.isRunning at h
  cases hlife : e.lifecycle with
  | running run =>
    rw [hlife] at h
    have hpending : (e.report run.id).isFinished = false := by simpa using h
    simp only [apply, start, hlife, hpending, Bool.false_eq_true, if_false]
  | _ =>
    rw [hlife] at h
    cases h

/-- Stopping an engine that has no run changes nothing. -/
theorem apply_stop_of_resting (h : e.standing.run? = none) : S.apply e .stop = e := by
  unfold Engine.standing at h
  cases hlife : e.lifecycle with
  | idle => simp only [apply, stop, hlife]
  | stopped => simp only [apply, stop, hlife]
  | _ =>
    rw [hlife] at h
    cases h

theorem isRunning_iff : e.isRunning = true ↔ ∃ id, e.standing = .running id ∧ (e.report id).isFinished = false := by
  unfold Engine.isRunning Engine.standing
  cases hlife : e.lifecycle with
  | running run => simp [Lifecycle.standing]
  | _ => simp [Lifecycle.standing]

theorem isClosing_finish (e : Engine χ σ ρ π) (next : Afterwards) :
    (finish e next).standing.isClosing = false := by
  cases next <;> rfl

end

/-! ### From one moment to the next -/

namespace History

variable {H : S.History} {shared : Shared χ σ π} {i j id : Nat} {m : Move} {next : Afterwards}

/-- While there is no run, nothing happens to the life cycle until one is spawned. -/
theorem resting_next (h : (H.engine i).standing.run? = none) :
    (H.engine (i + 1)).standing = (H.engine i).standing ∨ ∃ m height, H.move i = some m ∧
      (m = .start height ∨ m = .restart height) ∧ H.engine (i + 1) = (H.engine i).spawn height := by
  rcases H.turnover i with ⟨hs, -⟩ | ⟨m, hm, hturn⟩
  · exact .inl hs
  · generalize he : H.engine (i + 1) = e' at hturn ⊢
    cases hturn with
    | kept hs hr => exact .inl hs
    | spawned hl hcall => exact .inr ⟨m, _, hm, hcall, rfl⟩
    | closed hl hcall => rw [Engine.standing, hl] at h; cases h
    | finished hl hj => rw [Engine.standing, hl] at h; cases h

/-- A run goes on until a call begins to close it. -/
theorem running_next (h : (H.engine i).standing = .running id) :
    (H.engine (i + 1)).standing = .running id ∨ ∃ m next, H.move i = some m ∧
      Closes (H.engine i) id m next ∧ (H.engine (i + 1)).standing = .closing id next := by
  rcases H.turnover i with ⟨hs, -⟩ | ⟨m, hm, hturn⟩
  · exact .inl (hs.trans h)
  · generalize H.engine (i + 1) = e' at hturn ⊢
    cases hturn with
    | kept hs hr => exact .inl (hs.trans h)
    | spawned hl hcall => rcases hl with hl | hl <;> rw [Engine.standing, hl] at h <;> cases h
    | closed hl hcall =>
      rw [Engine.standing, hl] at h
      cases h
      exact .inr ⟨m, _, hm, hcall, rfl⟩
    | finished hl hj => rw [Engine.standing, hl] at h; cases h

/-- A call that closes a run goes on until it has ended it. -/
theorem closing_next (h : (H.engine i).standing = .closing id next) :
    (H.engine (i + 1)).standing = .closing id next ∨ H.engine (i + 1) = finish (H.engine i) next := by
  rcases H.turnover i with ⟨hs, -⟩ | ⟨m, hm, hturn⟩
  · exact .inl (hs.trans h)
  · generalize H.engine (i + 1) = e' at hturn ⊢
    cases hturn with
    | kept hs hr => exact .inl (hs.trans h)
    | spawned hl hcall => rcases hl with hl | hl <;> rw [Engine.standing, hl] at h <;> cases h
    | closed hl hcall => rw [Engine.standing, hl] at h; cases h
    | finished hl hj =>
      rw [Engine.standing, hl] at h
      cases h
      exact .inr rfl

/-- Reports of exits are never withdrawn, and no run loses its number. -/
theorem reported_next (i : Nat) :
    (H.engine i).reports.length ≤ (H.engine (i + 1)).reports.length ∧
      ∀ id, ((H.engine i).report id).isFinished = true → ((H.engine (i + 1)).report id).isFinished = true := by
  rcases H.turnover i with ⟨-, hr⟩ | ⟨m, -, hturn⟩
  · exact ⟨hr.length.ge, hr.finished⟩
  · generalize H.engine (i + 1) = e' at hturn ⊢
    cases hturn with
    | kept hs hr => exact ⟨hr.length.ge, hr.finished⟩
    | spawned hl hcall =>
      exact ⟨by rw [length_spawn]; exact Nat.le_succ _, fun _ hid => isFinished_spawn _ _ hid⟩
    | closed hl hcall => exact ⟨Nat.le_refl _, fun _ hid => hid⟩
    | @finished run deadline next hl hj =>
      cases next with
      | stop => exact ⟨Nat.le_refl _, fun _ hid => hid⟩
      | start height =>
        exact ⟨by rw [finish, length_spawn]; exact Nat.le_succ _, fun _ hid => isFinished_spawn _ _ hid⟩

theorem length_le (h : i ≤ j) : (H.engine i).reports.length ≤ (H.engine j).reports.length := by
  induction h with
  | refl => exact Nat.le_refl _
  | step _ ih => exact ih.trans (reported_next _).1

theorem isFinished_later (h : i ≤ j) (hid : ((H.engine i).report id).isFinished = true) :
    ((H.engine j).report id).isFinished = true := by
  induction h with
  | refl => exact hid
  | step _ ih => exact (reported_next _).2 id ih

/-- A cached sequence is not forgotten, unless a run ends. -/
theorem sequence_next (hbegin : H.engine 0 = .initial shared) (hbefore : (H.past i).sequence ≠ none)
    (hafter : (H.past (i + 1)).sequence = none) : ∃ id, H.Ends i id := by
  rcases H.change i with ⟨m, -, hchange⟩ | ⟨-, chain, source, assets, he⟩
  · have htidy := tidy hbegin i
    have hkept := shared_change hchange
    unfold past at hbefore hafter
    cases hkept with
    | added hs hd => exact absurd (hs.sequence.symm.trans hafter) hbefore
    | consumed hl hd => exact absurd hafter (hl.tells.sequence hbefore)
    | delivered hp hs =>
      rw [hs] at hafter
      exact absurd hafter hbefore
    | @finished _ run deadline next hl hj he =>
      have hid : (H.engine i).runId = some run.id := by rw [Engine.runId, hl]; rfl
      refine ⟨run.id, hid, ?_⟩
      have hnumber := (htidy.numbered run.id hid).2
      rw [he]
      cases next with
      | stop => exact (Option.some_ne_none _).symm
      | start height =>
        rw [finish, runId_spawn]
        intro heq
        have hnext := Option.some.inj heq
        rw [hnumber] at hnext
        exact Nat.succ_ne_self _ hnext
    | @aborted _ run deadline next hl hj hd he =>
      rw [he, abort, Submission.Loop.abort_eq] at hafter
      exact absurd hafter hbefore
  · rw [past, he] at hafter
    exact absurd hafter hbefore

/-! ### Runs -/

/-- A run that begins is spawned with the next number, and there is no other run left. -/
theorem Begins.spawned (h : H.Begins i id) :
    id = (H.engine i).reports.length + 1 ∧ (H.engine (i + 1)).reports.length = id ∧
      (∃ height, (H.engine (i + 1)).lifecycle = .running (.begin id height)) ∧
      ((H.engine i).runId = none ∨ ∃ before, H.Ends i before) := by
  have hbefore := h.before
  have hafter := h.after
  rw [Engine.runId_eq] at hbefore hafter
  cases hstanding : (H.engine i).standing.run? with
  | none =>
    rcases resting_next hstanding with hs | ⟨m, height, -, -, he⟩
    · rw [hs] at hafter
      exact absurd hafter hbefore
    · rw [← Engine.runId_eq, he, runId_spawn] at hafter
      obtain rfl := Option.some.inj hafter
      rw [he, length_spawn]
      exact ⟨rfl, rfl, ⟨height, rfl⟩, .inl ((Engine.runId_eq _).trans hstanding)⟩
  | some before =>
    have hends : H.Ends i before :=
      ⟨(Engine.runId_eq _).trans hstanding, fun heq => by
        rw [Engine.runId_eq, hafter] at heq
        exact hbefore (hstanding.trans heq.symm)⟩
    obtain ⟨run, deadline, next, hl, -, -, -, he⟩ := hends.finished
    cases next with
    | stop =>
      rw [← Engine.runId_eq, he] at hafter
      cases hafter
    | start height =>
      rw [← Engine.runId_eq, he, finish, runId_spawn] at hafter
      obtain rfl := Option.some.inj hafter
      rw [he, finish, length_spawn]
      exact ⟨rfl, rfl, ⟨height, rfl⟩, .inr ⟨before, hends⟩⟩

/-- A task of the run is alive: one was when the run was there for the last time. -/
def Alive (H : S.History) (i id : Nat) : Prop :=
  ∃ k ≤ i, (∃ run, (H.engine k).lifecycle.run? = some run ∧ run.id = id ∧ ¬ run.Ended) ∧
    ∀ k', k < k' → k' ≤ i → (H.engine k').runId ≠ some id

/-- Only the current run can have tasks that are alive. -/
theorem Alive.current (hbegin : H.engine 0 = .initial shared) (h : H.Alive i id) :
    ∃ run, (H.engine i).lifecycle.run? = some run ∧ run.id = id ∧ ¬ run.Ended := by
  obtain ⟨k, hk, hrun, hlast⟩ := h
  obtain rfl | hlt := Nat.eq_or_lt_of_le hk
  · exact hrun
  · -- the run ended before, and then it had no task left
    obtain ⟨run, hr, hid, halive⟩ := hrun
    have hends : H.Ends k id :=
      ⟨by rw [Engine.runId, hr]; exact congrArg some hid, hlast (k + 1) (Nat.lt_succ_self k) hlt⟩
    obtain ⟨run', hr', -, hended⟩ := hends.tasks hbegin
    rw [hr] at hr'
    obtain rfl := Option.some.inj hr'
    exact absurd hended halive

/-- Before a run begins, the tasks of all others have ended. -/
theorem Begins.alone (hbegin : H.engine 0 = .initial shared) (h : H.Begins i id) (id' : Nat) :
    ¬ H.Alive i id' := by
  intro halive
  obtain ⟨run, hr, -, hnot⟩ := halive.current hbegin
  obtain ⟨-, -, -, hnone | ⟨before, hends⟩⟩ := h.spawned
  · rw [Engine.runId, hr] at hnone
    cases hnone
  · obtain ⟨run', hr', -, hended⟩ := hends.tasks hbegin
    rw [hr] at hr'
    obtain rfl := Option.some.inj hr'
    exact hnot hended

/-! ### Calls to their end -/

theorem Completes.applied (h : H.Completes m i j) : H.engine (i + 1) = S.apply (H.engine i) m :=
  History.applied H h.made

/-- A call that closes nothing returns at once. -/
theorem Completes.at_once (h : H.Completes m i j) (hnext : (H.engine (i + 1)).standing.isClosing = false) :
    j = i + 1 := by
  obtain heq | hlt := Nat.eq_or_lt_of_le h.later
  · exact heq.symm
  · have hclosing := h.meanwhile (i + 1) (Nat.lt_succ_self i) hlt
    rw [hnext] at hclosing
    cases hclosing

/-- A call that begins to close a run returns when it has ended it. -/
theorem Completes.closing (h : H.Completes m i j) (hnext : (H.engine (i + 1)).standing = .closing id next) :
    ∃ k, j = k + 1 ∧ i < k ∧ (H.engine k).standing = .closing id next ∧
      H.engine j = finish (H.engine k) next := by
  have hduring : ∀ k, i < k → k < j → (H.engine k).standing = .closing id next := by
    intro k hik
    induction hik with
    | refl => exact fun _ => hnext
    | @step k hik ih =>
      intro hkj
      rcases closing_next (ih (Nat.lt_of_succ_lt hkj)) with hs | he
      · exact hs
      · have hclosing := h.meanwhile (k + 1) (Nat.lt_succ_of_lt hik) hkj
        rw [he, isClosing_finish] at hclosing
        cases hclosing
  obtain ⟨k, rfl⟩ := Nat.exists_eq_succ_of_ne_zero (Nat.ne_zero_of_lt h.later)
  have hik : i < k := by
    obtain rfl | hlt := Nat.eq_or_lt_of_le (Nat.le_of_lt_succ h.later)
    · have hreturned := h.returned
      rw [hnext] at hreturned
      cases hreturned
    · exact hlt
  refine ⟨k, rfl, hik, hduring k hik (Nat.lt_succ_self k), ?_⟩
  rcases closing_next (hduring k hik (Nat.lt_succ_self k)) with hs | he
  · have hreturned := h.returned
    rw [hs] at hreturned
    cases hreturned
  · exact he

/-- A call on a run that it closes. -/
theorem Completes.closes (h : H.Completes m i j) (hs : (H.engine i).standing = .running id)
    (hm : Closes (H.engine i) id m next) :
    ∃ k, j = k + 1 ∧ i < k ∧ (H.engine k).standing = .closing id next ∧
      H.engine j = finish (H.engine k) next := by
  obtain ⟨run, hl, rfl⟩ := Engine.standing_running hs
  refine h.closing ?_
  rw [h.applied, apply_of_closes hl hm]
  rfl

/-- A call that is made while there is no run begins one, if it is no stop. -/
theorem Completes.spawns (h : H.Completes m i j) (hs : (H.engine i).standing.run? = none)
    {height : Option Chain.Height} (hm : m = .start height ∨ m = .restart height) :
    j = i + 1 ∧ H.engine j = (H.engine i).spawn height := by
  have hnext : H.engine (i + 1) = (H.engine i).spawn height := by rw [h.applied, apply_of_resting hs hm]
  obtain rfl := h.at_once (by rw [hnext]; rfl)
  exact ⟨rfl, hnext⟩

/-- A run that was finished has ended, and its number is taken. -/
theorem ends_of_finish (hbegin : H.engine 0 = .initial shared) (hs : (H.engine i).standing = .closing id next)
    (he : H.engine (i + 1) = finish (H.engine i) next) : H.Ends i id := by
  have hid : (H.engine i).runId = some id := by rw [Engine.runId_eq, hs]; rfl
  refine ⟨hid, ?_⟩
  rw [he]
  cases next with
  | stop => exact (Option.some_ne_none _).symm
  | start height =>
    rw [finish, runId_spawn, ((tidy hbegin i).numbered id hid).2]
    exact fun heq => Nat.succ_ne_self _ (Option.some.inj heq)

/-- A run that is being closed was closed by a call. -/
theorem closing_since (hbegin : H.engine 0 = .initial shared) :
    ∀ i, (H.engine i).standing = .closing id next → ∃ k m, k < i ∧ H.move k = some m ∧
      (H.engine k).standing = .running id ∧ Closes (H.engine k) id m next ∧
      ∀ k', k < k' → k' ≤ i → (H.engine k').standing = .closing id next := by
  intro i
  induction i with
  | zero =>
    intro hs
    rw [hbegin] at hs
    cases hs
  | succ i ih =>
    intro hs
    cases hbefore : (H.engine i).standing with
    | running before =>
      rcases running_next hbefore with hs' | ⟨m, next', hm, hcloses, hs'⟩
      · rw [hs] at hs'
        cases hs'
      · rw [hs] at hs'
        cases hs'
        refine ⟨i, m, Nat.lt_succ_self i, hm, hbefore, hcloses, fun k' hlt hle => ?_⟩
        obtain rfl := Nat.le_antisymm hle hlt
        exact hs
    | closing before next' =>
      rcases closing_next hbefore with hs' | he
      · rw [hs] at hs'
        cases hs'
        obtain ⟨k, m, hk, hm, hrunning, hcloses, hsince⟩ := ih hbefore
        refine ⟨k, m, Nat.lt_succ_of_lt hk, hm, hrunning, hcloses, fun k' hlt hle => ?_⟩
        obtain rfl | hlt' := Nat.eq_or_lt_of_le hle
        · exact hs
        · exact hsince k' hlt (Nat.le_of_lt_succ hlt')
      · have hclosing := isClosing_finish (H.engine i) next'
        rw [← he, hs] at hclosing
        cases hclosing
    | idle =>
      rcases resting_next (by rw [hbefore]; rfl) with hs' | ⟨m, height, -, -, he⟩
      · rw [hs, hbefore] at hs'
        cases hs'
      · rw [he] at hs
        cases hs
    | stopped =>
      rcases resting_next (by rw [hbefore]; rfl) with hs' | ⟨m, height, -, -, he⟩
      · rw [hs, hbefore] at hs'
        cases hs'
      · rw [he] at hs
        cases hs

/-- An engine runs since the current run was begun, and no stop or restart was called since. -/
theorem running_since (hbegin : H.engine 0 = .initial shared) :
    ∀ i, (H.engine i).standing = .running id → ∃ b < i, H.Begins b id ∧
      ∀ k, b < k → k < i → H.move k ≠ some .stop ∧ ∀ height, H.move k ≠ some (.restart height) := by
  intro i
  induction i with
  | zero =>
    intro hs
    rw [hbegin] at hs
    cases hs
  | succ i ih =>
    intro hs
    have hid : (H.engine (i + 1)).runId = some id := by rw [Engine.runId_eq, hs]; rfl
    by_cases hsame : (H.engine i).standing = .running id
    · obtain ⟨b, hb, hbegins, hsince⟩ := ih hsame
      have hnow : ∀ m next, H.move i = some m → ¬ Closes (H.engine i) id m next := by
        intro m next hm hcloses
        obtain ⟨run, hl, rfl⟩ := Engine.standing_running hsame
        rw [H.applied hm, apply_of_closes hl hcloses] at hs
        cases hs
      refine ⟨b, Nat.lt_succ_of_lt hb, hbegins, fun k hbk hk => ?_⟩
      obtain rfl | hlt := Nat.eq_or_lt_of_le (Nat.le_of_lt_succ hk)
      · exact ⟨fun hm => hnow _ _ hm .stop, fun height hm => hnow _ _ hm .restart⟩
      · exact hsince k hbk hlt
    · refine ⟨i, Nat.lt_succ_self i, ⟨fun hbefore => ?_, hid⟩, fun k hik hk => by omega⟩
      -- a run that is being closed does not run again
      rw [Engine.runId_eq] at hbefore
      cases hstanding : (H.engine i).standing with
      | running before =>
        rw [hstanding] at hbefore hsame
        cases hbefore
        exact hsame rfl
      | closing before next =>
        rw [hstanding] at hbefore
        cases hbefore
        rcases closing_next hstanding with hs' | he
        · rw [hs] at hs'
          cases hs'
        · exact (ends_of_finish hbegin hstanding he).after hid
      | _ =>
        rw [hstanding] at hbefore
        cases hbefore

/-- A run that was begun runs until a stop or a restart is called, or it has reported its exit. -/
theorem running_until {b : Nat} (hbegins : H.Begins b id)
    (hsince : ∀ k, b < k → k < i → H.move k ≠ some .stop ∧ ∀ height, H.move k ≠ some (.restart height))
    (hreport : ((H.engine i).report id).isFinished = false) :
    ∀ k, b < k → k ≤ i → (H.engine k).standing = .running id := by
  intro k hbk
  induction hbk with
  | refl =>
    intro _
    obtain ⟨-, -, ⟨height, hl⟩, -⟩ := hbegins.spawned
    rw [Engine.standing, hl]
    rfl
  | @step k hbk ih =>
    intro hki
    rcases running_next (ih (Nat.le_of_succ_le hki)) with hs | ⟨m, next, hm, hcloses, -⟩
    · exact hs
    · obtain ⟨hstop, hrestart⟩ := hsince k hbk hki
      cases hcloses with
      | stop => exact absurd hm hstop
      | restart => exact absurd hm (hrestart _)
      | replace hfinished =>
        have hlater := isFinished_later (Nat.le_of_succ_le hki) hfinished
        rw [hreport] at hlater
        cases hlater

end History

/-! ### The life cycle -/

/-- How runs follow one another, and what calls come to. -/
structure Lawful (H : S.History) : Prop where
  /-- At any time the tasks of at most one run are alive. -/
  alone : ∀ {i id id'}, H.Alive i id → H.Alive i id' → id = id'
  /-- No task of another run is alive when a run begins. -/
  succession : ∀ {i id}, H.Begins i id → ∀ id', ¬ H.Alive i id'
  /-- The number of a run is greater than those of all runs before. -/
  ascending : ∀ {i j id id'}, H.Begins i id → H.Begins j id' → i < j → id < id'
  /-- A start while the engine runs changes nothing. -/
  kept : ∀ {i j height}, H.Completes (.start height) i j → (H.engine i).isRunning = true →
    j = i + 1 ∧ H.engine j = H.engine i
  /-- Any other start, and every restart, returns when a run from the given height begins. -/
  begun : ∀ {i j m height}, H.Completes m i j →
    (m = .start height ∧ (H.engine i).isRunning = false ∨ m = .restart height) →
    ∃ k id, j = k + 1 ∧ H.Begins k id ∧ (H.engine j).lifecycle = .running (.begin id height)
  /-- A stop where there is no run changes nothing. -/
  unstarted : ∀ {i j}, H.Completes .stop i j → (H.engine i).runId = none →
    j = i + 1 ∧ H.engine j = H.engine i
  /-- Any other stop returns when the engine is stopped. -/
  stopped : ∀ {i j}, H.Completes .stop i j → (H.engine i).runId ≠ none → (H.engine j).lifecycle = .stopped
  /-- A run ends when a call that closes it returns. -/
  shut : ∀ {k id}, H.Ends k id ↔ ∃ i m, H.Shuts m i (k + 1) id
  /-- No sequence is cached when a run has ended. -/
  forgets : ∀ {k id}, H.Ends k id → (H.past (k + 1)).sequence = none
  /-- A cached sequence is forgotten only when a run ends. -/
  forgotten : ∀ {k}, (H.past k).sequence ≠ none → (H.past (k + 1)).sequence = none → ∃ id, H.Ends k id
  /-- The engine says that it runs if and only if a run was begun, neither stop nor restart was called since, and
  the run has not reported its exit. -/
  running : ∀ {i}, (H.engine i).isRunning = true ↔ ∃ b id, b < i ∧ H.Begins b id ∧
    (∀ k, b < k → k < i → H.move k ≠ some .stop ∧ ∀ height, H.move k ≠ some (.restart height)) ∧
    ((H.engine i).report id).isFinished = false

namespace History

variable {H : S.History} {shared : Shared χ σ π} {i j id : Nat} {m : Move}

/-- When a call that closes a run returns, the run has ended. -/
theorem Shuts.ends (hbegin : H.engine 0 = .initial shared) (h : H.Shuts m i j id) :
    ∃ k, j = k + 1 ∧ H.Ends k id := by
  obtain ⟨next, hcloses⟩ := h.closes
  obtain ⟨k, rfl, -, hclosing, he⟩ := h.toCompletes.closes h.running hcloses
  exact ⟨k, rfl, ends_of_finish hbegin hclosing he⟩

theorem ends_iff (hbegin : H.engine 0 = .initial shared) :
    H.Ends i id ↔ ∃ k m, H.Shuts m k (i + 1) id := by
  constructor
  · intro hends
    obtain ⟨run, deadline, next, hl, rfl, -, -, he⟩ := hends.finished
    have hs : (H.engine i).standing = .closing run.id next := by rw [Engine.standing, hl]; rfl
    obtain ⟨k, m, hk, hm, hrunning, hcloses, hsince⟩ := closing_since hbegin i hs
    have hcompletes : H.Completes m k (i + 1) :=
      { made := hm
        free := by rw [hrunning]; rfl
        later := Nat.lt_succ_of_lt hk
        meanwhile := fun k' hlt hle => by
          rw [hsince k' hlt (Nat.le_of_lt_succ hle)]
          rfl
        returned := by
          rw [he]
          exact isClosing_finish _ _ }
    exact ⟨k, m, hcompletes, hrunning, next, hcloses⟩
  · rintro ⟨k, m, hshuts⟩
    obtain ⟨k', hk', hends⟩ := hshuts.ends hbegin
    obtain rfl := Nat.succ.inj hk'
    exact hends

/-- A start or a restart that does not find the engine running begins a run. -/
theorem Completes.begins (hbegin : H.engine 0 = .initial shared) (h : H.Completes m i j)
    {height : Option Chain.Height}
    (hm : m = .start height ∧ (H.engine i).isRunning = false ∨ m = .restart height) :
    ∃ k id, j = k + 1 ∧ H.Begins k id ∧ (H.engine j).lifecycle = .running (.begin id height) := by
  have hfresh : ∀ k, ((H.engine k).reports.length + 1 : Nat) ≠ (H.engine k).reports.length :=
    fun k => Nat.succ_ne_self _
  cases hstanding : (H.engine i).standing with
  | running id =>
    -- the run has exited, or it is restarted
    have hcloses : Closes (H.engine i) id m (.start height) := by
      rcases hm with ⟨rfl, hrunning⟩ | rfl
      · refine .replace ?_
        by_contra hpending
        rw [isRunning_iff.mpr ⟨id, hstanding, Bool.eq_false_iff.mpr hpending⟩] at hrunning
        cases hrunning
      · exact .restart
    obtain ⟨k, rfl, -, hclosing, he⟩ := h.closes hstanding hcloses
    have hid : (H.engine k).runId = some id := by rw [Engine.runId_eq, hclosing]; rfl
    refine ⟨k, (H.engine k).reports.length + 1, rfl, ⟨?_, by rw [he]; rfl⟩, by rw [he]; rfl⟩
    rw [hid, ((tidy hbegin k).numbered id hid).2]
    exact fun heq => hfresh k (Option.some.inj heq).symm
  | closing id next =>
    have hfree := h.free
    rw [hstanding] at hfree
    cases hfree
  | _ =>
    have hnone : (H.engine i).standing.run? = none := by rw [hstanding]; rfl
    obtain ⟨rfl, he⟩ := h.spawns hnone (hm.imp And.left id)
    refine ⟨i, (H.engine i).reports.length + 1, rfl, ⟨?_, by rw [he]; rfl⟩, by rw [he]; rfl⟩
    rw [Engine.runId_eq, hnone]
    exact nofun

theorem Completes.stops (h : H.Completes .stop i j) (hrun : (H.engine i).runId ≠ none) :
    (H.engine j).lifecycle = .stopped := by
  cases hstanding : (H.engine i).standing with
  | running id =>
    obtain ⟨k, -, -, -, he⟩ := h.closes hstanding .stop
    rw [he]
    rfl
  | closing id next =>
    have hfree := h.free
    rw [hstanding] at hfree
    cases hfree
  | _ => exact absurd (by rw [Engine.runId_eq, hstanding]; rfl) hrun

theorem isRunning_iff_begun (hbegin : H.engine 0 = .initial shared) :
    (H.engine i).isRunning = true ↔ ∃ b id, b < i ∧ H.Begins b id ∧
      (∀ k, b < k → k < i → H.move k ≠ some .stop ∧ ∀ height, H.move k ≠ some (.restart height)) ∧
      ((H.engine i).report id).isFinished = false := by
  rw [isRunning_iff]
  constructor
  · rintro ⟨id, hs, hreport⟩
    obtain ⟨b, hb, hbegins, hsince⟩ := running_since hbegin i hs
    exact ⟨b, id, hb, hbegins, hsince, hreport⟩
  · rintro ⟨b, id, hb, hbegins, hsince, hreport⟩
    exact ⟨id, running_until hbegins hsince hreport i hb (Nat.le_refl i), hreport⟩

/-- **The life cycle is lawful**, whatever happens between the calls and while they are under way. -/
theorem calls_lawful (hbegin : H.engine 0 = .initial shared) : Lawful H where
  alone h h' := by
    obtain ⟨run, hr, rfl, -⟩ := h.current hbegin
    obtain ⟨run', hr', rfl, -⟩ := h'.current hbegin
    rw [hr] at hr'
    rw [Option.some.inj hr']
  succession h := h.alone hbegin
  ascending h h' hlt := by
    obtain ⟨-, hlength, -⟩ := h.spawned
    obtain ⟨rfl, -⟩ := h'.spawned
    rw [← hlength]
    exact Nat.lt_succ_of_le (length_le hlt)
  kept {i j height} h hrunning := by
    have hnext : H.engine (i + 1) = H.engine i := by rw [h.applied, apply_start_of_isRunning hrunning]
    obtain rfl := h.at_once (by rw [hnext]; exact h.free)
    exact ⟨rfl, hnext⟩
  begun h hm := h.begins hbegin hm
  unstarted {i j} h hnone := by
    have hnext : H.engine (i + 1) = H.engine i := by
      rw [h.applied, apply_stop_of_resting ((Engine.runId_eq _).symm.trans hnone)]
    obtain rfl := h.at_once (by rw [hnext]; exact h.free)
    exact ⟨rfl, hnext⟩
  stopped h hrun := h.stops hrun
  shut := ends_iff hbegin
  forgets h := by
    obtain ⟨run, deadline, next, -, -, -, -, he⟩ := h.finished
    rw [past, he]
    cases next <;> rfl
  forgotten := sequence_next hbegin
  running := isRunning_iff_begun hbegin

end History

/-! ### Two runs -/

/-- No task is aborted in a history of a few things if none is aborted by one of them. -/
theorem timely_history {S : Service Chain.Ledger σ ρ π} {e : Engine Chain.Ledger σ ρ π} {hs : List (Happening σ π)}
    (h : ∀ i < hs.length, ((S.history e hs).move i).all (fun m => !aborts ((S.history e hs).engine i) m) = true) :
    (S.history e hs).Timely := by
  intro i m hm
  have hi : i < hs.length := by
    refine Nat.lt_of_not_le fun hle => ?_
    rw [show (S.history e hs).move i = hs[i]?.bind Happening.move? from rfl, List.getElem?_eq_none hle] at hm
    cases hm
  have hall := h i hi
  rw [hm] at hall
  simpa using hall

namespace Sample

/-- A start, one that finds the engine running, a stop that takes the stream's exit and joins all tasks, and another
start. -/
def calls : List (Happening Stream.Script Asset.Fixed) :=
  [.start (some 5), .start (some 9), .stop, .stream, .stream, .stream, .control, .submitter, .submitter,
    .control, .delivery, .delivery, .delivery, .control, .start (some 9)].map .move

/-- The first run of the sample ends when the stop returns, and the second one begins afterwards. -/
theorem calls_in_turn :
    Lawful (service.history start calls) ∧ (service.history start calls).Begins 0 1 ∧
      (service.history start calls).Completes .stop 2 14 ∧ (service.history start calls).Ends 13 1 ∧
      (service.history start calls).Begins 14 2 ∧
      ((service.history start calls).engine 2).isRunning = true := by
  have hbegin : (service.history start calls).engine 0 = .initial start.shared := rfl
  have hlawful : Lawful (service.history start calls) := History.calls_lawful hbegin
  have hmeanwhile : ∀ k < 14, 2 < k →
      ((service.history start calls).engine k).standing.isClosing = true := by decide
  refine ⟨hlawful, ⟨nofun, rfl⟩, ⟨rfl, rfl, by decide, fun k hk hlt => hmeanwhile k hlt hk, rfl⟩, ⟨rfl, nofun⟩,
    ⟨nofun, rfl⟩, rfl⟩

end Sample

end Attestor.Service
