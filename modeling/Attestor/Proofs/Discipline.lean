import Attestor.Proofs.Additions
import Attestor.Proofs.Broadcasts

/-!
The consumer loops of an engine over a ledger. Nothing but a consumer loop broadcasts or takes verifications
(`Calm`), and a run is not given up before its loop is over. So the loops of an engine stay orderly, whatever
moves are made (`Disciplined.move`): also where a run ends, its loop is aborted, and the next run goes on with
the queue.
-/

namespace Attestor

open Chain (Ledger SignedTransaction)
open Contract (Verification)
open Submission (Loop)
open Submission.Loop (Orderly)

variable {σ ρ π : Type}

/-! ### What leaves broadcasts and the queue's history as they are -/

/-- Nothing was broadcast or taken, and no loop began or ended. -/
structure Calm (s s' : Shared Ledger σ π) : Prop where
  broadcasts : s'.chain.broadcasts = s.chain.broadcasts
  history : s'.outbound.history = s.outbound.history
  submitting : s'.submitting = s.submitting

theorem Calm.refl (s : Shared Ledger σ π) : Calm s s := ⟨rfl, rfl, rfl⟩

theorem Calm.publish (s : Shared Ledger σ π) (d : Diagnostic) : Calm s (s.publish d) := ⟨rfl, rfl, rfl⟩

theorem Submission.Loop.Orderly.calm {b : Submitter} {base : List SignedTransaction} {ls : List Loop}
    {s s' : Shared Ledger σ π} (h : Orderly b base ls s) (hs : Calm s s') : Orderly b base ls s' :=
  ⟨by rw [hs.submitting]; exact h.exclusive, h.faithful, h.carried.congr hs.broadcasts hs.history⟩

/-- Over a ledger, the stream task and the replays broadcast nothing and take nothing. -/
theorem Calm.respected {c : Collaborators Ledger σ ρ π} (hc : c.chain = Ledger.client) :
    Respected c Calm where
  refl := refl
  trans h h' := ⟨h'.broadcasts.trans h.broadcasts, h'.history.trans h.history, h'.submitting.trans h.submitting⟩
  turns {x s s'} h := by
    cases x with
    | publish d =>
      rw [show s' = s.publish d from h]
      exact publish s d
    | enqueue v =>
      rw [show s' = s.enqueue v from h]
      exact ⟨rfl, Queue.history_publish _ v, rfl⟩
    | scopeRecord contract scope answer =>
      obtain ⟨chain, hchain, rfl⟩ := h
      rw [hc] at hchain
      cases hchain
      exact ⟨rfl, rfl, rfl⟩
    | retrieve scope answer =>
      obtain ⟨assets, -, rfl⟩ := h
      exact ⟨rfl, rfl, rfl⟩
    | verify scope asset answer =>
      obtain ⟨assets, -, rfl⟩ := h
      exact ⟨rfl, rfl, rfl⟩
  source _ _ := ⟨rfl, rfl, rfl⟩
  events _ _ := by
    rw [hc]
    exact ⟨rfl, rfl, rfl⟩

namespace Service

/-! ### The loops of an engine -/

/-- The loops are orderly, and a run whose delivery is joined has no loop left. -/
structure Disciplined (S : Service Ledger σ ρ π) (base : List SignedTransaction)
    (e : Engine Ledger σ ρ π) : Prop where
  orderly : Orderly S.submitter base (loops e) e.shared
  joined : ∀ run deadline next, e.lifecycle = .closing run .delivery deadline next → run.loop = .over

variable {S : Service Ledger σ ρ π} {base : List SignedTransaction} {e e' : Engine Ledger σ ρ π}

/-- A change of the run that leaves its loop, and a calm change of the shared state. -/
theorem Disciplined.mapRun (h : Disciplined S base e) {f : Run ρ → Run ρ}
    (hlifecycle : e'.lifecycle = e.lifecycle.mapRun f) (hf : ∀ run, (f run).loop = run.loop)
    (hextras : e'.extras = e.extras) (hshared : Calm e.shared e'.shared) : Disciplined S base e' where
  orderly := by
    have hloops : loops e' = loops e :=
      loops_congr (by rw [hlifecycle]; exact Lifecycle.loop_mapRun _ hf) (by rw [hextras])
    rw [hloops]
    exact h.orderly.calm hshared
  joined run deadline next hl := by
    rw [hlifecycle] at hl
    obtain ⟨before, hbefore, rfl⟩ := Lifecycle.of_mapRun_closing hl
    rw [hf]
    exact h.joined before deadline next hbefore

/-- A change that leaves the life cycle and the loops, and a calm change of the shared state. -/
theorem Disciplined.same (h : Disciplined S base e) (hlifecycle : e'.lifecycle = e.lifecycle)
    (hextras : e'.extras.map (·.loop) = e.extras.map (·.loop)) (hshared : Calm e.shared e'.shared) :
    Disciplined S base e' where
  orderly := by
    have hloops : loops e' = loops e := loops_congr (by rw [hlifecycle]) hextras
    rw [hloops]
    exact h.orderly.calm hshared
  joined run deadline next hl := h.joined run deadline next (by rw [← hlifecycle]; exact hl)

/-- A run that goes on being closed, or begins to be. -/
theorem Disciplined.closing (h : Disciplined S base e) (run : Run ρ) {run' : Run ρ} {joining : Joining} {deadline : Nat}
    {next : Afterwards} (hrun : e.lifecycle.run? = some run) (hloop : run'.loop = run.loop)
    (hover : joining = .delivery → run.loop = .over) :
    Disciplined S base { e with lifecycle := .closing run' joining deadline next } where
  orderly := by
    have hloops : loops { e with lifecycle := .closing run' joining deadline next } = loops e :=
      loops_congr (by rw [hrun]; exact congrArg some hloop) rfl
    rw [hloops]
    exact h.orderly
  joined run'' deadline' next' hl := by
    cases hl
    rw [hloop]
    exact hover rfl

/-- Beginning a run where there is none. -/
theorem Disciplined.spawn (h : Orderly S.submitter base ([] ++ e.extras.map (·.loop)) e.shared)
    (height : Option Chain.Height) : Disciplined S base (e.spawn height) where
  orderly := Submission.Loop.Orderly.putIn h rfl
  joined _ _ _ hl := by cases hl

/-- The stream ends, and the loops go on. -/
theorem Disciplined.streamEnded (h : Disciplined S base e) (id : Nat) (r : Report) :
    Disciplined S base (endStream e id r) :=
  h.mapRun (lifecycle_endStream ..) (fun _ => rfl) (extras_endStream ..)
    (by rw [shared_endStream]; exact .refl _)

/-- The loop of the run makes a step. -/
theorem Disciplined.loopMoved (h : Disciplined S base e) {run : Run ρ} {loop : Loop}
    {shared : Shared Ledger σ π} (hr : e.lifecycle.run? = some run)
    (hl : run.loop.step S.submitter Ledger.client run.cancelled false e.shared = .moved (loop, shared)) :
    Disciplined S base
      { e with shared, lifecycle := e.lifecycle.mapRun fun run => { run with loop } } := by
  have horderly := h.orderly
  rw [loops_of_run run hr] at horderly
  refine ⟨?_, fun run' deadline next hl' => ?_⟩
  · rw [loops_of_run { run with loop } (by rw [Lifecycle.run?_mapRun, hr]; rfl)]
    exact horderly.step (Submission.Loop.step_change hl)
  · -- a loop that is over makes no step
    obtain ⟨before, hbefore, rfl⟩ := Lifecycle.of_mapRun_closing hl'
    have hover := h.joined before deadline next hbefore
    rw [hbefore] at hr
    obtain rfl := Option.some.inj hr
    rw [hover] at hl
    cases hl

/-- A loop beside the run makes a step. -/
theorem Disciplined.extraMoved (h : Disciplined S base e) {i : Nat} {extra : Extra} {loop : Loop}
    {shared : Shared Ledger σ π} (hi : e.extras[i]? = some extra)
    (hl : extra.loop.step S.submitter Ledger.client extra.cancelled false e.shared =
      .moved (loop, shared)) :
    Disciplined S base { e with shared, extras := e.extras.set i { extra with loop } } := by
  obtain ⟨before, after, hbefore, hafter⟩ := loops_of_extra hi
  have horderly := h.orderly
  rw [hbefore] at horderly
  refine ⟨?_, h.joined⟩
  rw [hafter]
  exact horderly.step (Submission.Loop.step_change hl)

/-- The delivery was joined, so the loop of the run is over and can be left out. -/
theorem Disciplined.finish (h : Disciplined S base e) {run : Run ρ} {deadline : Nat} {next : Afterwards}
    (hl : e.lifecycle = .closing run .delivery deadline next) :
    Disciplined S base (finish e next) := by
  have horderly := h.orderly
  rw [loops_of_run run (by rw [hl]; rfl)] at horderly
  have hrest : Orderly S.submitter base ([] ++ e.extras.map (·.loop)) e.shared.reset :=
    (horderly.leaveOut (by rw [h.joined run deadline next hl]; rfl)).calm ⟨rfl, rfl, rfl⟩
  cases next with
  | stop => exact ⟨hrest, fun _ _ _ hl' => by cases hl'⟩
  | start height => exact Disciplined.spawn (e := { e with shared := e.shared.reset }) hrest height

theorem Disciplined.abort (h : Disciplined S base e) {run : Run ρ} {joining : Joining} {deadline : Nat}
    {next : Afterwards} (hl : e.lifecycle = .closing run joining deadline next) :
    Disciplined S base (abort e run joining) := by
  cases joining with
  | stream => exact h.streamEnded run.id .lost
  | submitter =>
    have horderly := h.orderly
    rw [loops_of_run run (by rw [hl]; rfl)] at horderly
    refine ⟨?_, fun run' deadline' next' hl' => ?_⟩
    · rw [loops_of_run { run with loop := .over } (by
        simp only [Service.abort, Lifecycle.run?_mapRun, hl]
        rfl)]
      exact horderly.abort
    · obtain ⟨before, -, rfl⟩ := Lifecycle.of_mapRun_closing hl'
      rfl
  | delivery => exact h.mapRun rfl (fun _ => rfl) rfl (.refl _)

/-- The events of a replay are looked up. -/
theorem Disciplined.lookedUp (h : Disciplined S base e) (hc : S.collaborators.chain = Ledger.client)
    {hash : String} {answer : Except Error (List Contract.Event)} {shared : Shared Ledger σ π}
    (hs : S.eventsOf hash e.shared = (answer, shared)) (replays : List Routing.Agenda) :
    Disciplined S base { e with shared, replays } := by
  have hcalm := (Calm.respected hc).eventsOf hash e.shared
  rw [hs] at hcalm
  exact h.same rfl rfl hcalm

/-- One more loop is called. -/
theorem Disciplined.called (h : Disciplined S base e) :
    Disciplined S base { e with extras := e.extras ++ [⟨false, .called⟩] } := by
  refine ⟨?_, h.joined⟩
  have hloops : loops { e with extras := e.extras ++ [⟨false, .called⟩] } = loops e ++ .called :: [] := by
    simp only [loops, List.map_append, List.map_cons, List.map_nil, List.append_assoc]
  rw [hloops]
  refine Submission.Loop.Orderly.putIn ?_ rfl
  rw [List.append_nil]
  exact h.orderly

/-- A move keeps the discipline. -/
theorem Disciplined.move (h : Disciplined S base e) (hc : S.collaborators.chain = Ledger.client) {m : Move}
    (hchange : Change S e m e') : Disciplined S base e' := by
  cases hchange with
  | still => exact h
  | streamMoved hr ht hx hs => exact h.mapRun rfl (fun _ => rfl) rfl ((Calm.respected hc).stream hs)
  | streamExited hr ht hx => exact h.streamEnded _ _
  | streamCrashed hr ht hx hs => exact h.streamEnded _ _
  | loopMoved hr hl => exact h.loopMoved hr (hc ▸ hl)
  | deliveryMoved hr hd => exact h.mapRun rfl (fun _ => rfl) rfl ⟨rfl, rfl, rfl⟩
  | @streamJoined run deadline next hl hj => exact h.closing run (by rw [hl]; rfl) rfl nofun
  | @loopJoined run deadline next hl hj => exact h.closing run (by rw [hl]; rfl) rfl fun _ => hj
  | deliveryJoined hl hj => exact h.finish hl
  | aborted hl hj hd => exact h.abort hl
  | @spawned m height hl hm =>
    have horderly := h.orderly
    rw [loops_of_none (by rcases hl with hl | hl <;> rw [hl] <;> rfl)] at horderly
    exact Disciplined.spawn horderly height
  | @replaced run height hl hf => exact h.closing run (by rw [hl]; rfl) rfl nofun
  | @restarted run height hl => exact h.closing run (by rw [hl]; rfl) rfl nofun
  | @stopped run hl => exact h.closing run (by rw [hl]; rfl) rfl nofun
  | replayFailed hs => exact h.lookedUp hc hs e.replays
  | replayBegun hs => exact h.lookedUp hc hs _
  | replayMoved hi ha => exact h.same rfl rfl ((Calm.respected hc).agenda ha)
  | replayCrashed hi ha => exact h.same rfl rfl (.refl _)
  | extraMoved hi hl => exact h.extraMoved hi (hc ▸ hl)
  | ticked => exact h.same rfl rfl (.refl _)
  | published => exact h.same rfl rfl (.publish _ _)
  | called => exact h.called
  | dismissed => exact h.same rfl (loops_dismiss _ _) (.refl _)

end Service

end Attestor
