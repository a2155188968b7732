import Attestor.Proofs.Calls

/-!
Custody of verifications. A verification that is queued waits until a consumer loop takes it, is in the hands of that
loop while it is submitted, and is completed after that. At most one loop is active, so at any moment the
completed verifications, then the one in hand, and then those that wait, are the queued ones in their order, and the
loops have told one outcome for each that is completed (`Custody.moved`). A call that closes a run waits for its loop,
and a loop does not leave a submission; so the submission is completed when the call returns
(`History.submissions_complete`).
-/

namespace Attestor

open Contract (Verification)

variable {χ σ ρ π : Type}

/-- The diagnostic says what became of a submission. -/
def Diagnostic.concludes : Diagnostic → Bool
  | .submission _ (.resyncFailed _) => false
  | .submission _ _ => true
  | _ => false

/-! ### One loop -/

namespace Submission

/-- What has been told of the outcome so far. -/
def told (x : Submission) : List Diagnostic :=
  match x.stage with
  | .told outcome => [.submission x.verification outcome.told]
  | .unsynced outcome _ => [.submission x.verification outcome.told]
  | .over outcome => [.submission x.verification outcome.told]
  | _ => []

/-- A submission that was brought to its end. -/
structure Completion where
  verification : Verification
  outcome : Outcome

/-- What is told of a completed submission. -/
def Completion.conclusion (c : Completion) : Diagnostic := .submission c.verification c.outcome.told

theorem concludes_told (v : Verification) (outcome : Outcome) :
    Diagnostic.concludes (.submission v outcome.told) = true := by
  cases outcome <;> rfl

namespace Loop

/-- The submission that the loop is busy with. -/
def submission? : Loop → Option Submission
  | .submitting x => some x
  | _ => none

/-- The submission that a loop has completed when it turns to the queue again. -/
def completion? : (before after : Loop) → Option Completion
  | .submitting x, .receiving => x.outcome?.map (⟨x.verification, ·⟩)
  | _, _ => none

/-- The verification that the loop has in hand. -/
def inHand (l : Loop) : List Verification := (l.submission?.map (·.verification)).toList

/-- What the loop has told of the submission in hand. -/
def told (l : Loop) : List Diagnostic := (l.submission?.map Submission.told).getD []

variable {b : Submitter} {client : Chain.Client χ} {cancelled closed : Bool} {l l' : Loop} {s s' : Shared χ σ π}

/-- What a loop takes from the queue it has in hand until it has completed it. -/
theorem Change.inHand (h : Change b client cancelled closed l s l' s') :
    ∃ taken, s'.outbound.history = s.outbound.history ++ taken ∧
      l.inHand ++ taken = (completion? l l').toList.map (·.verification) ++ l'.inHand := by
  cases h with
  | declined hl hs => exact ⟨[], (List.append_nil _).symm, by rw [hl]; rfl⟩
  | admitted hl hs => exact ⟨[], (List.append_nil _).symm, by rw [hl]; rfl⟩
  | leased hl hc => exact ⟨[], (List.append_nil _).symm, by rw [hl]; rfl⟩
  | dismissed hl hc => exact ⟨[], (List.append_nil _).symm, by rcases hl with rfl | rfl <;> rfl⟩
  | finished hl hc hq => exact ⟨[], (List.append_nil _).symm, by rw [hl]; rfl⟩
  | @took v outbound hl hc hq => exact ⟨[v], (Queue.of_next? hq).2.2, by rw [hl]; rfl⟩
  | @submitted x outcome hl hx =>
    refine ⟨[], (List.append_nil _).symm, ?_⟩
    rw [hl, completion?, hx]
    rfl
  | @advanced x x' _ hl hx =>
    refine ⟨[], by rw [hx.outbound, List.append_nil], ?_⟩
    have hsame : x'.verification = x.verification := by cases hx <;> rfl
    rw [hl, Loop.inHand, Loop.inHand, submission?, submission?, Option.map_some, Option.map_some, hsame]
    rfl

/-- A submission on its way tells its outcome once. -/
theorem told_change {x x' : Submission} (h : Submission.Change b client x s x' s') :
    ∃ ds, s'.diagnostics.log = s.diagnostics.log ++ ds ∧
      x.told ++ ds.filter Diagnostic.concludes = x'.told := by
  have hsilent : s'.diagnostics = s.diagnostics → x'.told = x.told → ∃ ds,
      s'.diagnostics.log = s.diagnostics.log ++ ds ∧ x.told ++ ds.filter Diagnostic.concludes = x'.told :=
    fun hs hx => ⟨[], by rw [hs, List.append_nil], by rw [hx]; exact List.append_nil _⟩
  cases h with
  | numbered hx hs =>
    exact hsilent (by rw [← s.diagnostics_current client b.signer.address, hs]) (by simp [Submission.told, hx])
  | unnumbered hx hs =>
    exact hsilent (by rw [← s.diagnostics_current client b.signer.address, hs]) (by simp [Submission.told, hx])
  | signed hx ht => exact hsilent rfl (by simp [Submission.told, hx])
  | unsigned hx ht => exact hsilent rfl (by simp [Submission.told, hx])
  | broadcast hx hb =>
    exact hsilent (by rw [← diagnostics_broadcast b client _ s, hb]) (by simp [Submission.told, hx])
  | @told answer outcome hx ho =>
    refine ⟨[.submission x.verification outcome.told], rfl, ?_⟩
    rw [List.filter_cons_of_pos (concludes_told _ _)]
    cases hsuccess : outcome.isSuccess <;> simp [Submission.told, hx]
  | resynced hx hs =>
    exact hsilent (by rw [← s.diagnostics_resync client b.signer.address, hs]) (by simp [Submission.told, hx])
  | unsynced hx hs =>
    exact hsilent (by rw [← s.diagnostics_resync client b.signer.address, hs]) (by simp [Submission.told, hx])
  | complained hx => exact ⟨_, rfl, by simp [Submission.told, hx, Diagnostic.concludes]⟩

/-- A loop tells one outcome of what it submits, before it has completed it. -/
theorem Change.told (h : Change b client cancelled closed l s l' s') :
    ∃ ds, s'.diagnostics.log = s.diagnostics.log ++ ds ∧
      l.told ++ ds.filter Diagnostic.concludes = (completion? l l').toList.map Completion.conclusion ++ l'.told := by
  cases h with
  | declined hl hs => exact ⟨[], (List.append_nil _).symm, by rw [hl]; rfl⟩
  | admitted hl hs => exact ⟨[], (List.append_nil _).symm, by rw [hl]; rfl⟩
  | leased hl hc => exact ⟨[], (List.append_nil _).symm, by rw [hl]; rfl⟩
  | dismissed hl hc => exact ⟨[], (List.append_nil _).symm, by rcases hl with rfl | rfl <;> rfl⟩
  | finished hl hc hq => exact ⟨[], (List.append_nil _).symm, by rw [hl]; rfl⟩
  | took hl hc hq => exact ⟨[], (List.append_nil _).symm, by rw [hl]; rfl⟩
  | @submitted x outcome hl hx =>
    refine ⟨[], (List.append_nil _).symm, ?_⟩
    obtain ⟨v, stage⟩ := x
    obtain rfl : stage = .over outcome := by
      cases stage with
      | «over» o => exact congrArg Stage.over (Option.some.inj hx)
      | _ => cases hx
    rw [hl]
    rfl
  | advanced hl hx =>
    obtain ⟨ds, hlog, hds⟩ := told_change hx
    exact ⟨ds, hlog, by rw [hl]; exact hds⟩

/-- A loop that submits does not do anything else before it has completed the submission. -/
theorem Change.submits {x : Submission} (h : Change b client cancelled closed l s l' s') (hl : l = .submitting x)
    (hnone : completion? l l' = none) : ∃ x', l' = .submitting x' := by
  cases h with
  | declined hl' hs => rw [hl] at hl'; cases hl'
  | admitted hl' hs => rw [hl] at hl'; cases hl'
  | leased hl' hc => rw [hl] at hl'; cases hl'
  | dismissed hl' hc => rcases hl' with hl' | hl' <;> rw [hl] at hl' <;> cases hl'
  | finished hl' hc hq => rw [hl] at hl'; cases hl'
  | took hl' hc hq => rw [hl] at hl'; cases hl'
  | submitted hl' hx =>
    rw [hl', completion?, hx] at hnone
    cases hnone
  | advanced hl' hx => exact ⟨_, rfl⟩

theorem inHand_of_inactive (h : l.isActive = false) : l.inHand = [] := by
  cases l with
  | submitting x => cases h
  | _ => rfl

theorem told_of_inactive (h : l.isActive = false) : l.told = [] := by
  cases l with
  | submitting x => cases h
  | _ => rfl

theorem completion?_self (l : Loop) : completion? l l = none := by
  cases l <;> rfl

/-! ### Several loops -/

/-- The active loops and the state that they share, what was completed, and what was told. -/
structure Custody (actives : List Loop) (s : Shared χ σ π) (completed : List Completion)
    (told : List Diagnostic) : Prop where
  exclusive : actives.length = s.submitting.toNat
  taken : s.outbound.history = completed.map (·.verification) ++ actives.flatMap Loop.inHand
  told : told.filter Diagnostic.concludes = completed.map Completion.conclusion ++ actives.flatMap Loop.told

variable {completed : List Completion} {told : List Diagnostic} {before after : List Loop}

theorem Custody.congr {actives : List Loop} (h : Custody actives s completed told)
    (hhistory : s'.outbound.history = s.outbound.history) (hsubmitting : s'.submitting = s.submitting) :
    Custody actives s' completed told :=
  ⟨by rw [hsubmitting]; exact h.exclusive, by rw [hhistory]; exact h.taken, h.told⟩

theorem flatMap_filter_singleton {α : Type} {f : Loop → List α} (hf : l.isActive = false → f l = []) :
    ([l].filter isActive).flatMap f = f l := by
  cases hactive : l.isActive with
  | true => rw [List.filter_cons_of_pos hactive]; exact List.append_nil _
  | false => rw [List.filter_cons_of_neg (by simp [hactive]), hf hactive]; rfl

theorem length_filter_singleton (l : Loop) : ([l].filter isActive).length = l.isActive.toNat := by
  cases hactive : l.isActive with
  | true => rw [List.filter_cons_of_pos hactive]; rfl
  | false => rw [List.filter_cons_of_neg (by simp [hactive])]; rfl

/-- The active loop makes a step. -/
theorem Custody.active (h : Custody [l] s completed told) (hactive : l.isActive = true)
    (hl : Change b client cancelled closed l s l' s') :
    ∃ ds, s'.diagnostics.log = s.diagnostics.log ++ ds ∧
      Custody ([l'].filter isActive) s' (completed ++ (completion? l l').toList) (told ++ ds) := by
  obtain ⟨taken, hhistory, hinHand⟩ := hl.inHand
  obtain ⟨ds, hlog, htold⟩ := hl.told
  have hsubmitting : s.submitting = true := by
    have hexclusive := h.exclusive
    cases hs : s.submitting with
    | true => rfl
    | false => rw [hs] at hexclusive; cases hexclusive
  refine ⟨ds, hlog, ?_, ?_, ?_⟩
  · have hbalance := hl.balance fun _ => hsubmitting
    rw [hsubmitting, hactive, Nat.add_comm] at hbalance
    rw [length_filter_singleton]
    exact Nat.add_left_cancel hbalance
  · rw [flatMap_filter_singleton inHand_of_inactive, hhistory, h.taken, List.flatMap_singleton, List.map_append,
      List.append_assoc, hinHand, List.append_assoc]
  · rw [flatMap_filter_singleton told_of_inactive, List.filter_append, h.told, List.flatMap_singleton, List.map_append,
      List.append_assoc, htold, List.append_assoc]

/-- One of the loops makes a step. -/
theorem Custody.moved (h : Custody ((before ++ l :: after).filter isActive) s completed told)
    (hl : Change b client cancelled closed l s l' s') :
    ∃ ds, s'.diagnostics.log = s.diagnostics.log ++ ds ∧
      Custody ((before ++ l' :: after).filter isActive) s' (completed ++ (completion? l l').toList) (told ++ ds) := by
  have hsplit : ∀ x, (before ++ x :: after).filter isActive =
      before.filter isActive ++ [x].filter isActive ++ after.filter isActive := by
    intro x
    rw [← List.filter_append, ← List.filter_append, List.append_assoc]
    rfl
  by_cases hactive : l.isActive = true
  · -- no other loop is active
    have hone : [l].filter isActive = [l] := List.filter_cons_of_pos hactive
    have hlength := h.exclusive
    rw [hsplit, hone, List.length_append, List.length_append, List.length_singleton] at hlength
    have hle := Bool.toNat_le s.submitting
    have hbefore : before.filter isActive = [] := List.eq_nil_of_length_eq_zero (by omega)
    have hafter : after.filter isActive = [] := List.eq_nil_of_length_eq_zero (by omega)
    rw [hsplit, hbefore, hafter, List.nil_append, List.append_nil] at h ⊢
    rw [hone] at h
    exact h.active hactive hl
  · cases hl with
    | declined hl hs =>
      subst hl
      refine ⟨[], (List.append_nil _).symm, ?_⟩
      rw [List.append_nil, hsplit]
      rw [hsplit] at h
      rw [show (completion? .called .over).toList = [] from rfl, List.append_nil]
      exact h
    | admitted hl hs =>
      subst hl
      have hnone : (before ++ Loop.called :: after).filter isActive = [] :=
        List.eq_nil_of_length_eq_zero (by rw [h.exclusive, hs]; rfl)
      have hothers := hnone
      rw [hsplit, List.append_eq_nil_iff, List.append_eq_nil_iff] at hothers
      rw [hnone] at h
      refine ⟨[], (List.append_nil _).symm, ?_⟩
      rw [hsplit, hothers.1.1, hothers.2, show (completion? .called .leasing).toList = [] from rfl]
      simp only [List.append_nil, List.nil_append]
      exact ⟨rfl, h.taken, h.told⟩
    | leased hl hc => exact absurd (by rw [hl]; rfl) hactive
    | dismissed hl hc => exact absurd (by rcases hl with rfl | rfl <;> rfl) hactive
    | finished hl hc hq => exact absurd (by rw [hl]; rfl) hactive
    | took hl hc hq => exact absurd (by rw [hl]; rfl) hactive
    | submitted hl hx => exact absurd (by rw [hl]; rfl) hactive
    | advanced hl hx => exact absurd (by rw [hl]; rfl) hactive

end Loop

end Submission

/-! ### The loops of an engine -/

namespace Service

open Submission (Completion Loop)
open Submission.Loop (Custody completion?)

variable {S : Service χ σ ρ π} {e e' : Engine χ σ ρ π} {m : Move}

/-- The loops that are active. -/
def actives (e : Engine χ σ ρ π) : List Loop := (loops e).filter Loop.isActive

/-- The loop that a move gives a step, if it is one of a loop. -/
def loopOf (e : Engine χ σ ρ π) : Move → Option Loop
  | .submitter => e.lifecycle.run?.map (·.loop)
  | .consuming i => e.extras[i]?.map (·.loop)
  | _ => none

/-- The submission that is completed by a move between two states. -/
def completes (e : Engine χ σ ρ π) (m : Move) (e' : Engine χ σ ρ π) : Option Completion :=
  (loopOf e m).bind fun l => (loopOf e' m).bind (completion? l)

theorem completes_self (e : Engine χ σ ρ π) (m : Move) : completes e m e = none := by
  unfold completes
  cases loopOf e m with
  | none => rfl
  | some l => exact Submission.Loop.completion?_self l

/-- What a move can do to the loops of an engine. -/
inductive LoopsChange (S : Service χ σ ρ π) (e : Engine χ σ ρ π) : Move → Engine χ σ ρ π → Prop where
  /-- No loop makes a step; loops that are not active may come and go. -/
  | quiet {m : Move} {e' : Engine χ σ ρ π} (hactives : actives e' = actives e)
      (hhistory : e'.shared.outbound.history = e.shared.outbound.history)
      (hsubmitting : e'.shared.submitting = e.shared.submitting) (hm : loopOf e m = none ∨ e' = e) :
      LoopsChange S e m e'
  | moved {m : Move} {e' : Engine χ σ ρ π} {before l l' after cancelled} (hl : loopOf e m = some l)
      (hl' : loopOf e' m = some l') (hbefore : loops e = before ++ l :: after)
      (hafter : loops e' = before ++ l' :: after)
      (hc : Loop.Change S.submitter S.collaborators.chain cancelled false l e.shared l' e'.shared) :
      LoopsChange S e m e'
  | aborted {e' : Engine χ σ ρ π} (h : aborts e .control = true) : LoopsChange S e .control e'

/-- The loops stay as they are, and nothing but additions happens to what they share. -/
theorem LoopsChange.added (hloops : loops e' = loops e) (hadds : Adds e.shared e'.shared)
    (hm : loopOf e m = none) : LoopsChange S e m e' :=
  .quiet (by rw [actives, hloops]; rfl) hadds.outbound.history hadds.submitting (.inl hm)

theorem loops_mapRun {f : Run ρ → Run ρ} (hlifecycle : e'.lifecycle = e.lifecycle.mapRun f)
    (hf : ∀ run, (f run).loop = run.loop) (hextras : e'.extras = e.extras) : loops e' = loops e :=
  loops_congr (by rw [hlifecycle]; exact Lifecycle.loop_mapRun _ hf) (by rw [hextras])

theorem actives_spawn (height : Option Chain.Height) (h : e.lifecycle.run? = none) :
    actives (e.spawn height) = actives e := by
  rw [actives, actives, loops_of_none h]
  rfl

theorem actives_finish (e : Engine χ σ ρ π) {run : Run ρ} (hr : e.lifecycle.run? = some run)
    (hover : run.loop = .over) (next : Afterwards) : actives (finish e next) = actives e := by
  rw [actives, actives, loops_of_run run hr, hover]
  cases next <;> rfl

/-- A move does one of these things to the loops. -/
theorem loops_change (htidy : Tidy e) (h : Change S e m e') : LoopsChange S e m e' := by
  cases h with
  | still => exact .quiet rfl rfl rfl (.inr rfl)
  | streamMoved hr ht hx hs =>
    exact .added (loops_mapRun rfl (fun _ => rfl) rfl) ((Adds.respected _).stream hs) rfl
  | streamExited hr ht hx =>
    exact .added (loops_mapRun (lifecycle_endStream ..) (fun _ => rfl) (extras_endStream ..))
      (by rw [shared_endStream]; exact .refl _) rfl
  | streamCrashed hr ht hx hs =>
    exact .added (loops_mapRun (lifecycle_endStream ..) (fun _ => rfl) (extras_endStream ..))
      (by rw [shared_endStream]; exact .refl _) rfl
  | @loopMoved run loop shared hr hl =>
    have hr' : (e.lifecycle.mapRun fun run => { run with loop }).run? = some { run with loop } := by
      rw [Lifecycle.run?_mapRun, hr]
      rfl
    exact .moved (by rw [loopOf, hr]; rfl) (by rw [loopOf, hr']; rfl) (loops_of_run run hr) (loops_of_run _ hr')
      (Submission.Loop.step_change hl)
  | deliveryMoved hr hd =>
    refine .quiet ?_ rfl rfl (.inl rfl)
    exact congrArg (List.filter Loop.isActive) (loops_mapRun rfl (fun _ => rfl) rfl)
  | streamJoined hl hj =>
    exact .added (loops_congr (by rw [hl]; rfl) rfl) (.refl _) rfl
  | loopJoined hl hj =>
    exact .added (loops_congr (by rw [hl]; rfl) rfl) (.refl _) rfl
  | @deliveryJoined run deadline next hl hj =>
    have hended := htidy.ended hl hj
    refine .quiet (actives_finish e (by rw [hl]; rfl) hended.loop next) ?_ ?_ (.inl rfl) <;> cases next <;> rfl
  | aborted hl hj hd => exact .aborted (aborts_of_closing hl hj hd)
  | @spawned m height hl hm =>
    refine .quiet (actives_spawn height ?_) rfl rfl (.inl ?_)
    · rcases hl with hl | hl <;> rw [hl] <;> rfl
    · rcases hm with rfl | rfl <;> rfl
  | replaced hl hf => exact .added (loops_congr (by rw [hl]; rfl) rfl) (.refl _) rfl
  | restarted hl => exact .added (loops_congr (by rw [hl]; rfl) rfl) (.refl _) rfl
  | stopped hl => exact .added (loops_congr (by rw [hl]; rfl) rfl) (.refl _) rfl
  | @replayFailed hash error shared hs =>
    have hadds := (Adds.respected S.collaborators).eventsOf hash e.shared
    rw [hs] at hadds
    exact .added rfl hadds rfl
  | @replayBegun hash events shared hs =>
    have hadds := (Adds.respected S.collaborators).eventsOf hash e.shared
    rw [hs] at hadds
    exact .added rfl hadds rfl
  | replayMoved hi ha => exact .added rfl ((Adds.respected _).agenda ha) rfl
  | replayCrashed hi ha => exact .added rfl (.refl _) rfl
  | @extraMoved i extra loop shared hi hl =>
    obtain ⟨before, after, hbefore, hafter⟩ := loops_of_extra hi
    have hlt : i < e.extras.length := (List.getElem?_eq_some_iff.mp hi).1
    refine .moved (by rw [loopOf, hi]; rfl) ?_ hbefore (hafter shared loop) (Submission.Loop.step_change hl)
    rw [loopOf, List.getElem?_set_self hlt]
    rfl
  | ticked => exact .added rfl (.refl _) rfl
  | published => exact .added rfl (.publish _ _) rfl
  | called =>
    refine .quiet ?_ rfl rfl (.inl rfl)
    simp [actives, loops, Loop.isActive]
  | dismissed => exact .added (loops_congr rfl (loops_dismiss _ _)) (.refl _) rfl

/-! ### All moments -/

/-- What was taken from the queue stays taken. -/
theorem taken_change (h : Change S e m e') : e.shared.outbound.history <+: e'.shared.outbound.history := by
  cases shared_change h with
  | added hs hd => exact hs.outbound.history ▸ List.prefix_refl _
  | consumed hl hd =>
    obtain ⟨taken, htaken, -⟩ := hl.inHand
    rw [htaken]
    exact List.prefix_append _ _
  | delivered hp hs => exact hs ▸ List.prefix_refl _
  | @finished _ run deadline next hl hj he =>
    rw [he]
    cases next <;> exact List.prefix_refl _
  | @aborted _ run deadline next hl hj hd he =>
    have htaken : e'.shared.outbound.history = e.shared.outbound.history := by
      rw [he, abort, Submission.Loop.abort_eq]
    exact htaken ▸ List.prefix_refl _

namespace History

variable (H : S.History)

/-- The submission that is completed at a moment, if one is. -/
def completes (i : Nat) : List Completion :=
  ((H.move i).bind fun m => Service.completes (H.engine i) m (H.engine (i + 1))).toList

/-- What loops tell at a moment. -/
def tells (i : Nat) : List Diagnostic :=
  if ((H.move i).bind (loopOf (H.engine i))).isSome then H.news i else []

/-- The submissions that were completed before a moment, in order. -/
def completed (i : Nat) : List Completion := (List.range i).flatMap H.completes

/-- What loops had told before a moment, in order. -/
def told (i : Nat) : List Diagnostic := (List.range i).flatMap H.tells

theorem completed_succ (i : Nat) : H.completed (i + 1) = H.completed i ++ H.completes i := by
  rw [completed, List.range_succ, List.flatMap_append, List.flatMap_singleton]
  rfl

theorem told_succ (i : Nat) : H.told (i + 1) = H.told i ++ H.tells i := by
  rw [told, List.range_succ, List.flatMap_append, List.flatMap_singleton]
  rfl

variable {H} {chain : χ} {source : σ} {assets : π} {i j : Nat}

/-- Loops tell no more than what is published. -/
theorem told_sublist (i : Nat) :
    (H.told i).Sublist (H.past i).diagnostics.log := by
  induction i with
  | zero => exact List.nil_sublist _
  | succ i ih =>
    rw [told_succ, H.log_succ]
    refine ih.append ?_
    unfold tells
    split
    · exact List.Sublist.refl _
    · exact List.nil_sublist _

/-- At every moment each verification that was taken is completed or in hand, and its outcome is told once. -/
theorem custody (hbegin : H.engine 0 = .initial (.initial chain source assets)) (htimely : H.Timely) (i : Nat) :
    Custody (actives (H.engine i)) (H.past i) (H.completed i) (H.told i) := by
  induction i with
  | zero =>
    rw [past, hbegin]
    exact ⟨rfl, rfl, rfl⟩
  | succ i ih =>
    rw [completed_succ, told_succ]
    rcases H.change i with ⟨m, hm, hchange⟩ | ⟨hm, chain, source, assets, he⟩
    · have hcompletes : H.completes i = (Service.completes (H.engine i) m (H.engine (i + 1))).toList := by
        rw [completes, hm]
        rfl
      have htells : H.tells i = if (loopOf (H.engine i) m).isSome then H.news i else [] := by
        rw [tells, hm]
        rfl
      rw [hcompletes, htells]
      cases loops_change (tidy hbegin i) hchange with
      | quiet hactives hhistory hsubmitting hquiet =>
        have hnothing : Service.completes (H.engine i) m (H.engine (i + 1)) = none ∧
            (if (loopOf (H.engine i) m).isSome then H.news i else []) = [] := by
          rcases hquiet with hnone | he
          · rw [Service.completes, hnone]
            exact ⟨rfl, rfl⟩
          · rw [he, H.news_of_eq he, ite_self]
            exact ⟨completes_self _ _, rfl⟩
        rw [hnothing.1, hnothing.2, Option.toList_none, List.append_nil, List.append_nil, hactives]
        exact ih.congr hhistory hsubmitting
      | moved hl hl' hbefore hafter hc =>
        rw [actives, hbefore] at ih
        obtain ⟨ds, hlog, hnext⟩ := ih.moved hc
        have hnews : H.news i = ds := by
          have hlog' := H.log_succ i
          rw [show (H.past (i + 1)).diagnostics.log = _ from hlog] at hlog'
          exact (List.append_cancel_left hlog').symm
        rw [Service.completes, hl, hl', hnews, actives, hafter]
        exact hnext
      | aborted haborts =>
        rw [htimely i _ hm] at haborts
        cases haborts
    · have hcompletes : H.completes i = [] := by rw [completes, hm]; rfl
      have htells : H.tells i = [] := by rw [tells, hm]; rfl
      rw [hcompletes, htells, List.append_nil, List.append_nil, past, he]
      exact ih.congr rfl rfl

end History

/-! ### Loops that are left -/

/-- Who runs a consumer loop: a run of the engine, or someone beside it. -/
inductive Caller where
  | run (id : Nat)
  | other (i : Nat)

/-- The loop of a caller. The loop of a run is there as long as the run. -/
def loopFor (e : Engine χ σ ρ π) : Caller → Option Loop
  | .run id => (e.lifecycle.run?.filter (·.id = id)).map (·.loop)
  | .other i => e.extras[i]?.map (·.loop)

theorem loopFor_run {run : Run ρ} (h : e.lifecycle.run? = some run) : loopFor e (.run run.id) = some run.loop := by
  simp [loopFor, h, Option.filter]

theorem of_loopFor_run {id : Nat} {l : Loop} (h : loopFor e (.run id) = some l) :
    ∃ run, e.lifecycle.run? = some run ∧ run.id = id ∧ run.loop = l := by
  obtain ⟨run, hrun, rfl⟩ := Option.map_eq_some_iff.mp h
  obtain ⟨hr, hid⟩ := Option.filter_eq_some_iff.mp hrun
  exact ⟨run, hr, by simpa using hid, rfl⟩

theorem mem_loops_of_loopFor {who : Caller} {l : Loop} (h : loopFor e who = some l) : l ∈ loops e := by
  cases who with
  | run id =>
    obtain ⟨run, hr, -, rfl⟩ := of_loopFor_run h
    rw [loops_of_run run hr]
    exact List.mem_cons_self ..
  | other i =>
    obtain ⟨extra, hextra, rfl⟩ := Option.map_eq_some_iff.mp h
    exact List.mem_append_right _ (List.mem_map_of_mem (List.mem_of_getElem? hextra))

/-- A run goes on, or it has ended all of its tasks. -/
theorem run_next (htidy : Tidy e) (h : Change S e m e') {run : Run ρ} (hr : e.lifecycle.run? = some run) :
    (∃ run', e'.lifecycle.run? = some run' ∧ run'.id = run.id ∧ RunChange S e run m e' run') ∨ run.Ended := by
  have hid : e.runId = some run.id := by rw [Engine.runId, hr]; rfl
  have hsame : e'.runId = e.runId → ∃ run', e'.lifecycle.run? = some run' ∧ run'.id = run.id ∧
      RunChange S e run m e' run' := by
    intro hrunId
    rw [hid] at hrunId
    obtain ⟨run', hr', hrun'⟩ := Option.map_eq_some_iff.mp hrunId
    refine ⟨run', hr', hrun', ?_⟩
    rcases run_change h hr' with ⟨before, hbefore, hchange⟩ | ⟨height, rfl, -⟩
    · rw [hr] at hbefore
      obtain rfl := Option.some.inj hbefore
      exact hchange
    · have hnumber := (htidy.numbered run.id hid).2
      rw [← hrun'] at hnumber
      exact absurd hnumber (Nat.succ_ne_self _)
  cases turnover h with
  | kept hs hreported => exact .inl (hsame (by rw [Engine.runId_eq, Engine.runId_eq, hs]))
  | spawned hl hm => rcases hl with hl | hl <;> rw [hl] at hr <;> cases hr
  | closed hl hm =>
    refine .inl (hsame ?_)
    rw [hid]
    rw [hl] at hr
    cases hr
    rfl
  | finished hl hj =>
    have hended := htidy.ended hl hj
    rw [hl] at hr
    cases hr
    exact .inr hended

/-- The loop of a run makes a step, or stays as it is. -/
theorem loop_next (htidy : Tidy e) (h : Change S e m e') (haborts : aborts e m = false) {run : Run ρ}
    (hr : e.lifecycle.run? = some run) : run.Ended ∨ ∃ run', e'.lifecycle.run? = some run' ∧ run'.id = run.id ∧
      (run'.loop = run.loop ∨ m = .submitter ∧ Loop.Change S.submitter S.collaborators.chain run.cancelled false
        run.loop e.shared run'.loop e'.shared) := by
  rcases run_next htidy h hr with ⟨run', hr', hid, hrun⟩ | hended
  · refine .inr ⟨run', hr', hid, ?_⟩
    cases hrun with
    | kept hid hstream hloop hdelivery hreports => exact .inl hloop
    | loopMoved hl hreports => exact .inr ⟨rfl, hl⟩
    | aborted haborted =>
      rw [haborts] at haborted
      cases haborted
    | _ => exact .inl rfl
  · exact .inl hended

/-- A loop beside the run makes a step, or stays as it is. -/
theorem extra_next (h : Change S e m e') {i : Nat} {extra : Extra} (hi : e.extras[i]? = some extra) :
    ∃ extra', e'.extras[i]? = some extra' ∧
      (extra'.loop = extra.loop ∨ m = .consuming i ∧ Loop.Change S.submitter S.collaborators.chain extra.cancelled
        false extra.loop e.shared extra'.loop e'.shared) := by
  cases h with
  | streamExited hr ht hx => exact ⟨extra, by rw [extras_endStream]; exact hi, .inl rfl⟩
  | streamCrashed hr ht hx hs => exact ⟨extra, by rw [extras_endStream]; exact hi, .inl rfl⟩
  | @deliveryJoined run deadline next hl hj => cases next <;> exact ⟨extra, hi, .inl rfl⟩
  | @aborted run joining deadline next hl hj hd =>
    cases joining with
    | stream => exact ⟨extra, by rw [abort, extras_endStream]; exact hi, .inl rfl⟩
    | _ => exact ⟨extra, hi, .inl rfl⟩
  | @extraMoved j moved loop shared hj hl =>
    have hlt : j < e.extras.length := (List.getElem?_eq_some_iff.mp hj).1
    by_cases hij : j = i
    · subst hij
      obtain rfl := Option.some.inj (hi.symm.trans hj)
      exact ⟨{ extra with loop }, List.getElem?_set_self hlt, .inr ⟨rfl, Submission.Loop.step_change hl⟩⟩
    · exact ⟨extra, by rw [List.getElem?_set_ne hij]; exact hi, .inl rfl⟩
  | called =>
    have hlt : i < e.extras.length := (List.getElem?_eq_some_iff.mp hi).1
    exact ⟨extra, by rw [List.getElem?_append_left hlt]; exact hi, .inl rfl⟩
  | @dismissed j =>
    refine ⟨if j = i then { extra with cancelled := true } else extra, ?_, .inl ?_⟩
    · rw [List.getElem?_modify, hi]
      split <;> rfl
    · split <;> rfl
  | _ => exact ⟨extra, hi, .inl rfl⟩

/-- A caller whose loop submits goes on submitting, unless the submission is completed. -/
theorem submits_next (htidy : Tidy e) (h : Change S e m e') (haborts : aborts e m = false) {who : Caller}
    {x : Submission} (hx : loopFor e who = some (.submitting x)) (hnone : completes e m e' = none) :
    ∃ x', loopFor e' who = some (.submitting x') := by
  cases who with
  | run id =>
    obtain ⟨run, hr, rfl, hloop⟩ := of_loopFor_run hx
    rcases loop_next htidy h haborts hr with hended | ⟨run', hr', hid, hsame | ⟨rfl, hchange⟩⟩
    · rw [hended.loop] at hloop
      cases hloop
    · rw [← hid, loopFor_run hr', hsame, hloop]
      exact ⟨x, rfl⟩
    · have hcompletion : completion? run.loop run'.loop = none := by
        rw [completes, loopOf, loopOf, hr, hr'] at hnone
        exact hnone
      obtain ⟨x', hx'⟩ := hchange.submits hloop hcompletion
      rw [← hid, loopFor_run hr', hx']
      exact ⟨x', rfl⟩
  | other i =>
    obtain ⟨extra, hi, hloop⟩ := Option.map_eq_some_iff.mp hx
    obtain ⟨extra', hi', hsame | ⟨rfl, hchange⟩⟩ := extra_next h hi
    · exact ⟨x, by rw [loopFor, hi', Option.map_some, hsame, hloop]⟩
    · have hcompletion : completion? extra.loop extra'.loop = none := by
        rw [completes, loopOf, loopOf, hi, hi'] at hnone
        exact hnone
      obtain ⟨x', hx'⟩ := hchange.submits hloop hcompletion
      exact ⟨x', by rw [loopFor, hi', Option.map_some, hx']⟩

/-- The submissions that are in the hands of loops. -/
def inProgress (e : Engine χ σ ρ π) : List Submission := (loops e).filterMap Loop.submission?

theorem map_filterMap_submission? (ls : List Loop) :
    (ls.filterMap Loop.submission?).map (·.verification) = ls.flatMap Loop.inHand := by
  induction ls with
  | nil => rfl
  | cons l ls ih =>
    cases l with
    | submitting x => exact congrArg (x.verification :: ·) ih
    | _ => exact ih

theorem flatMap_filterMap_submission? (ls : List Loop) :
    (ls.filterMap Loop.submission?).flatMap Submission.told = ls.flatMap Loop.told := by
  induction ls with
  | nil => rfl
  | cons l ls ih =>
    cases l with
    | submitting x => exact congrArg (x.told ++ ·) ih
    | _ => exact ih

/-- A loop that is called while the submitter is held returns at once. -/
theorem apply_declined (hcalled : loopOf e m = some .called) (hs : e.shared.submitting = true) :
    loopOf (S.apply e m) m = some .over ∧ (S.apply e m).shared = e.shared := by
  cases m with
  | submitter =>
    obtain ⟨run, hr, hloop⟩ := Option.map_eq_some_iff.mp hcalled
    have hstep : S.submitterStep e =
        some { e with lifecycle := e.lifecycle.mapRun fun run => { run with loop := .over } } := by
      simp [submitterStep, hr, hloop, Loop.step, hs, Progress.next?]
    rw [apply, hstep, Option.getD_some, loopOf, Lifecycle.run?_mapRun, hr]
    exact ⟨rfl, rfl⟩
  | consuming i =>
    obtain ⟨extra, hi, hloop⟩ := Option.map_eq_some_iff.mp hcalled
    have hlt : i < e.extras.length := (List.getElem?_eq_some_iff.mp hi).1
    have hstep : S.extraStep e i = some { e with extras := e.extras.set i { extra with loop := .over } } := by
      simp [extraStep, hi, hloop, Loop.step, hs, Progress.next?]
    rw [apply, hstep, Option.getD_some, loopOf, List.getElem?_set_self hlt]
    exact ⟨rfl, rfl⟩
  | _ => cases hcalled

/-- Only active loops have submissions in hand. -/
theorem inProgress_eq (e : Engine χ σ ρ π) : inProgress e = (actives e).filterMap Loop.submission? := by
  rw [inProgress, actives, List.filterMap_filter]
  refine List.filterMap_congr fun l _ => ?_
  cases l <;> rfl

namespace History

variable {H : S.History} {chain : χ} {source : σ} {assets : π} {i j : Nat}

theorem completed_mono (h : i ≤ j) : H.completed i <+: H.completed j := by
  induction h with
  | refl => exact List.prefix_refl _
  | step _ ih =>
    rw [completed_succ]
    exact ih.trans (List.prefix_append _ _)

/-- What was taken from the queue stays taken. -/
theorem taken_mono (h : i ≤ j) : (H.past i).outbound.history <+: (H.past j).outbound.history := by
  induction h with
  | refl => exact List.prefix_refl _
  | @step j _ ih =>
    refine ih.trans ?_
    rcases H.change j with ⟨m, -, hchange⟩ | ⟨-, chain, source, assets, he⟩
    · exact taken_change hchange
    · rw [past, past, he]
      exact List.prefix_refl _

/-- A caller whose loop submits goes on submitting, until a submission is completed. -/
theorem submits_until (hbegin : H.engine 0 = .initial (.initial chain source assets)) (htimely : H.Timely)
    {who : Caller} {x : Submission} (h : loopFor (H.engine i) who = some (.submitting x)) (hij : i ≤ j)
    (hnone : H.completed j = H.completed i) : ∃ x', loopFor (H.engine j) who = some (.submitting x') := by
  induction hij with
  | refl => exact ⟨x, h⟩
  | @step j hij ih =>
    have hbefore : H.completed j = H.completed i := by
      refine ((completed_mono hij).eq_of_length_le ?_).symm
      rw [← hnone]
      exact (completed_mono (Nat.le_succ j)).length_le
    have hcompletes : H.completes j = [] := by
      rw [completed_succ, hbefore] at hnone
      exact List.append_right_eq_self.mp hnone
    obtain ⟨x', hx'⟩ := ih hbefore
    rcases H.change j with ⟨m, hm, hchange⟩ | ⟨-, chain, source, assets, he⟩
    · rw [completes, hm] at hcompletes
      exact submits_next (tidy hbegin j) hchange (htimely j m hm) hx' (Option.toList_eq_nil_iff.mp hcompletes)
    · rw [he]
      exact ⟨x', hx'⟩

/-- A submission that a caller has left is completed, after those that were completed before. -/
theorem completed_of_left (hbegin : H.engine 0 = .initial (.initial chain source assets)) (htimely : H.Timely)
    {who : Caller} {x : Submission} (h : loopFor (H.engine i) who = some (.submitting x)) (hij : i ≤ j)
    (hleft : ∀ x', loopFor (H.engine j) who ≠ some (.submitting x')) :
    ∃ c, (H.completed j)[(H.completed i).length]? = some c ∧ c.verification = x.verification := by
  obtain ⟨rest, hrest⟩ := completed_mono (H := H) hij
  cases rest with
  | nil =>
    rw [List.append_nil] at hrest
    obtain ⟨x', hx'⟩ := submits_until hbegin htimely h hij hrest.symm
    exact absurd hx' (hleft x')
  | cons c rest =>
    refine ⟨c, by rw [← hrest]; simp, ?_⟩
    have hcustody := custody hbegin htimely i
    have hone : actives (H.engine i) = [.submitting x] := by
      have hmem : Loop.submitting x ∈ actives (H.engine i) := List.mem_filter.mpr ⟨mem_loops_of_loopFor h, rfl⟩
      have hle := Bool.toNat_le (H.past i).submitting
      rw [← hcustody.exclusive] at hle
      obtain ⟨l, hl⟩ := List.length_eq_one_iff.mp (Nat.le_antisymm hle (List.length_pos_of_mem hmem))
      rw [hl] at hmem ⊢
      rw [List.mem_singleton.mp hmem]
    -- what was taken last then is what was completed next
    have htaken := taken_mono (H := H) hij
    rw [hcustody.taken, (custody hbegin htimely j).taken, hone, ← hrest, List.map_append, List.append_assoc] at htaken
    have hnext := (List.prefix_append_right_inj _).mp htaken
    exact (List.cons_prefix_cons.mp hnext).1.symm

end History

/-! ### Every verification is submitted -/

/-- Verifications are submitted in order, one at a time, and each to its end. -/
structure Custodial (H : S.History) : Prop where
  /-- At most one loop is active at a time. -/
  exclusive : ∀ i, (loops (H.engine i)).countP Loop.isActive ≤ 1
  /-- At most one submission is in progress at a time. -/
  single : ∀ i, (inProgress (H.engine i)).length ≤ 1
  /-- A loop that is called while another one is active returns at once, and nothing is taken. -/
  declined : ∀ {i m}, H.move i = some m → loopOf (H.engine i) m = some .called →
    (∃ l ∈ loops (H.engine i), l.isActive = true) →
    loopOf (H.engine (i + 1)) m = some .over ∧ H.past (i + 1) = H.past i
  /-- What was submitted, then what is being submitted, and then what waits, is what was queued. -/
  inOrder : ∀ i, (H.completed i).map (·.verification) ++ (inProgress (H.engine i)).map (·.verification) ++
    (H.past i).outbound.items = (H.past i).outbound.log
  /-- The loops have told one outcome of each submission that was completed, and at most one of that in progress. -/
  concluded : ∀ i, (H.told i).filter Diagnostic.concludes =
    (H.completed i).map Completion.conclusion ++ (inProgress (H.engine i)).flatMap Submission.told
  /-- What the loops have told was published. -/
  published : ∀ i, (H.told i).Sublist (H.past i).diagnostics.log
  /-- When a call that closes a run returns, the submission that the run's loop had in hand is completed. -/
  closed : ∀ {m i j id run x}, H.Shuts m i j id → (H.engine i).lifecycle = .running run → run.loop = .submitting x →
    ∃ c, (H.completed j)[(H.completed i).length]? = some c ∧ c.verification = x.verification
  /-- The same holds when any loop returns, however it was cancelled. -/
  returned : ∀ {i j n x}, i ≤ j → loopFor (H.engine i) (.other n) = some (.submitting x) →
    loopFor (H.engine j) (.other n) = some .over →
    ∃ c, (H.completed j)[(H.completed i).length]? = some c ∧ c.verification = x.verification

namespace History

variable {H : S.History} {chain : χ} {source : σ} {assets : π}

/-- **Verifications are neither lost, doubled nor reordered.** Whatever is queued and called, and where no task is
aborted. -/
theorem submissions_complete (hbegin : H.engine 0 = .initial (.initial chain source assets))
    (htimely : H.Timely) : Custodial H where
  exclusive i := by
    rw [List.countP_eq_length_filter]
    exact (custody hbegin htimely i).exclusive.trans_le (Bool.toNat_le _)
  single i := by
    rw [inProgress_eq]
    exact ((List.length_filterMap_le _ _).trans_eq (custody hbegin htimely i).exclusive).trans (Bool.toNat_le _)
  declined {i m} hm hcalled hactive := by
    obtain ⟨l, hl, hactive⟩ := hactive
    have hmem : l ∈ actives (H.engine i) := List.mem_filter.mpr ⟨hl, hactive⟩
    have hsubmitting : (H.engine i).shared.submitting = true := by
      have hlength := (custody hbegin htimely i).exclusive
      have hpos := List.length_pos_of_mem hmem
      rw [hlength] at hpos
      cases hs : (H.past i).submitting with
      | true => exact hs
      | false =>
        rw [hs] at hpos
        cases hpos
    have hfollows := H.follows i
    rw [hm] at hfollows
    rw [past, show H.engine (i + 1) = S.apply (H.engine i) m from hfollows]
    exact apply_declined hcalled hsubmitting
  inOrder i := by
    rw [inProgress_eq, map_filterMap_submission?, ← (custody hbegin htimely i).taken]
    exact Queue.history_append_items _
  concluded i := by
    rw [inProgress_eq, flatMap_filterMap_submission?]
    exact (custody hbegin htimely i).told
  published := told_sublist
  closed {m i j id run x} hshuts hl hx := by
    have hid : run.id = id := by
      have hrunning := hshuts.running
      rw [Engine.standing, hl] at hrunning
      exact Standing.running.inj hrunning
    have hloop : loopFor (H.engine i) (.run id) = some (.submitting x) := by
      rw [← hid, loopFor_run (by rw [hl]; rfl), hx]
    refine completed_of_left hbegin htimely hloop (Nat.le_of_lt hshuts.later) fun x' hx' => ?_
    obtain ⟨j, rfl, hends⟩ := hshuts.ends hbegin
    obtain ⟨run', hr', rfl, -⟩ := of_loopFor_run hx'
    exact hends.after (by rw [Engine.runId, hr']; rfl)
  returned hij hx hover :=
    completed_of_left hbegin htimely hx hij fun x' hx' => by
      rw [hover] at hx'
      cases hx'

end History

/-! ### A submission that is interrupted -/

namespace Sample

/-- The loop of the run has taken the decision and submits it when another loop is called and the engine is
stopped. -/
def interruption : List Move :=
  .start none :: (List.replicate 14 Move.stream ++ List.replicate 4 Move.submitter ++
    [.consume, .consuming 0, .stop] ++ List.replicate 3 Move.stream ++ [.control] ++ List.replicate 8 Move.submitter ++
    [.control] ++ List.replicate 8 Move.delivery ++ [.control])

def interrupted : List (Happening Stream.Script Asset.Fixed) := interruption.map .move

/-- The other loop returns at once, and the submission is completed when the stop returns. -/
theorem interrupted_submitted :
    (service.history start interrupted).Timely ∧ Custodial (service.history start interrupted) ∧
      (service.history start interrupted).Shuts .stop 21 44 1 ∧
      loopFor ((service.history start interrupted).engine 21) (.other 0) = some .over ∧
      ∃ run x c, ((service.history start interrupted).engine 21).lifecycle = .running run ∧
        run.loop = .submitting x ∧ (service.history start interrupted).completed 44 = [c] ∧
        c.verification = x.verification := by
  have htimely : (service.history start interrupted).Timely := timely_history (by decide +kernel)
  have hbegin : (service.history start interrupted).engine 0 = .initial (.initial ledger script .approving) := rfl
  have hcustodial : Custodial (service.history start interrupted) := History.submissions_complete hbegin htimely
  have hmeanwhile : ∀ k < 44, 21 < k →
      ((service.history start interrupted).engine k).standing.isClosing = true := by decide +kernel
  have hshuts : (service.history start interrupted).Shuts .stop 21 44 1 :=
    { made := rfl
      free := rfl
      later := by decide
      meanwhile := fun k hlt hk => hmeanwhile k hk hlt
      returned := rfl
      running := rfl
      closes := ⟨.stop, .stop⟩ }
  obtain ⟨c, hc, hverification⟩ := hcustodial.closed hshuts rfl rfl
  have hone : ((service.history start interrupted).completed 44).length = 1 := rfl
  obtain ⟨c', hc'⟩ := List.length_eq_one_iff.mp hone
  rw [hc'] at hc
  exact ⟨htimely, hcustodial, hshuts, rfl, _, _, c', rfl, rfl, hc', Option.some.inj hc ▸ hverification⟩

end Sample

end Service

end Attestor
