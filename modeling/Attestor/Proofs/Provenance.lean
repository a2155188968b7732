import Attestor.Proofs.Causes
import Attestor.Proofs.Moves
import Attestor.Proofs.Submissions
import Attestor.Proofs.Transitions

/-!
Where queued verifications come from. A history of an engine tells the engine at each moment and the move made
then; moments at which something outside of the engine changes are part of it. Whatever the handlers,
collaborators and moves are, every verification that was ever queued was queued by the handler of an event that
had been delivered before, in a block or by a replay (`History.accounted`).
-/

namespace Attestor.Service

open Routing (Agenda Arrived Queues)
open Contract (Event Verification)

variable {χ σ ρ π : Type}

/-- The events of the chain that a move delivers: those of the block that the stream task takes, or those of the
transaction that a replay looks up. -/
def delivers (S : Service χ σ ρ π) (e : Engine χ σ ρ π) : Move → List Chain.Event
  | .stream =>
    match e.lifecycle.run? with
    | none => []
    | some run =>
      match run.stream.bind (·.taken? S.collaborators.source run.cancelled) with
      | none => []
      | some b => b.events
  | .replay hash =>
    match (S.collaborators.chain.events hash e.shared.chain).1 with
    | .ok events => events
    | .error _ => []
  | _ => []

/-- What comes next: a move is made, or the chain, the source or the assets change by themselves. -/
def Follows (S : Service χ σ ρ π) (e : Engine χ σ ρ π) (m : Option Move) (e' : Engine χ σ ρ π) : Prop :=
  match m with
  | some m => e' = S.apply e m
  | none => ∃ chain source assets, e' = { e with shared := { e.shared with chain, source, assets } }

/-- The engine at each moment, and the move that was made then, if any. -/
structure History (S : Service χ σ ρ π) where
  engine : Nat → Engine χ σ ρ π
  move : Nat → Option Move
  follows : ∀ i, Follows S (engine i) (move i) (engine (i + 1))

namespace History

variable {S : Service χ σ ρ π} (H : History S)

/-- The move that is made is applied. -/
theorem applied {i : Nat} {m : Move} (hm : H.move i = some m) : H.engine (i + 1) = S.apply (H.engine i) m := by
  have hfollows := H.follows i
  rw [hm] at hfollows
  exact hfollows

/-- Where no move is made, only the chain, the source and the assets change. -/
theorem unmoved {i : Nat} (hm : H.move i = none) : ∃ chain source assets,
    H.engine (i + 1) = { H.engine i with shared := { (H.engine i).shared with chain, source, assets } } := by
  have hfollows := H.follows i
  rw [hm] at hfollows
  exact hfollows

/-- The shared state at a moment. -/
def past (i : Nat) : Shared χ σ π := (H.engine i).shared

/-- The event was delivered at a moment. -/
def arrived (i : Nat) (e : Event) : Prop :=
  ∃ m, H.move i = some m ∧ ∃ raw ∈ S.delivers (H.engine i) m, Event.classify raw = some e

/-- The agenda holds events that have arrived, and the one that is being handled is under way. -/
abbrev Sound (now : Nat) (a : Agenda) : Prop :=
  a.Sound S.driver.router S.collaborators H.past H.arrived now

/-- What a stream task has taken has arrived. -/
def TaskSound (now : Nat) (t : Stream.Task ρ) : Prop :=
  match t.phase with
  | .received b _ => ∀ e ∈ b.events.filterMap Event.classify, Arrived H.arrived now e
  | .handling agenda _ => H.Sound now agenda
  | _ => True

/-- The verification at this place of the queue's log was queued at an earlier moment, by an event that was
under way then. -/
def Accounts (now j : Nat) (v : Verification) : Prop :=
  ∃ m < now, (H.past m).outbound.log.length = j ∧
    (H.past (m + 1)).outbound.log = (H.past m).outbound.log ++ [v] ∧
    Queues S.driver.router S.collaborators H.past H.arrived m v

/-- All events that are on their way have arrived, and all verifications are accounted for. -/
structure Accounted (now : Nat) : Prop where
  task : ∀ t, (H.engine now).lifecycle.task? = some t → H.TaskSound now t
  replays : ∀ a ∈ (H.engine now).replays, H.Sound now a
  queue : ∀ j v, (H.past now).outbound.log[j]? = some v → H.Accounts now j v

variable {H} {now : Nat} {e' : Engine χ σ ρ π}

theorem TaskSound.later {t : Stream.Task ρ} (h : H.TaskSound now t) : H.TaskSound (now + 1) t := by
  unfold TaskSound at h ⊢
  split at h
  · exact fun e he => (h e he).later
  · exact Agenda.Sound.later h
  · trivial

theorem Accounts.later {j : Nat} {v : Verification} (h : H.Accounts now j v) :
    H.Accounts (now + 1) j v := by
  obtain ⟨m, hm, hrest⟩ := h
  exact ⟨m, Nat.lt_succ_of_lt hm, hrest⟩

/-- What was accounted for stays so, and so is what is queued now by an event under way. -/
theorem Accounted.queue_append (h : H.Accounted now) {vs : List Verification}
    (hlog : (H.past (now + 1)).outbound.log = (H.past now).outbound.log ++ vs)
    (hvs : vs = [] ∨ ∃ v, vs = [v] ∧ Queues S.driver.router S.collaborators H.past H.arrived now v) :
    ∀ j v, (H.past (now + 1)).outbound.log[j]? = some v → H.Accounts (now + 1) j v := by
  intro j v hj
  rcases hvs with rfl | ⟨w, rfl, hw⟩
  · rw [hlog, List.append_nil] at hj
    exact (h.queue j v hj).later
  · by_cases hlt : j < (H.past now).outbound.log.length
    · rw [hlog, List.getElem?_append_left hlt] at hj
      exact (h.queue j v hj).later
    · have hlen := (List.getElem?_eq_some_iff.mp hj).1
      rw [hlog, List.length_append, List.length_singleton] at hlen
      have hjeq : j = (H.past now).outbound.log.length := by omega
      subst hjeq
      rw [hlog, List.getElem?_concat_length] at hj
      obtain rfl := Option.some.inj hj
      exact ⟨now, Nat.lt_succ_self now, rfl, hlog, hw⟩

/-- Where no handler goes on, everything stays accounted for. -/
theorem Accounted.keep (h : H.Accounted now) (he : H.engine (now + 1) = e')
    (htask : ∀ t, e'.lifecycle.task? = some t →
      H.TaskSound (now + 1) t ∨ (H.engine now).lifecycle.task? = some t)
    (hreplays : ∀ a ∈ e'.replays, H.Sound (now + 1) a ∨ a ∈ (H.engine now).replays)
    (hlog : e'.shared.outbound.log = (H.past now).outbound.log) : H.Accounted (now + 1) where
  task t ht := by
    rcases htask t (he ▸ ht) with hnew | hold
    · exact hnew
    · exact (h.task t hold).later
  replays a ha := by
    rcases hreplays a (he ▸ ha) with hnew | hold
    · exact hnew
    · exact (h.replays a hold).later
  queue := h.queue_append (by rw [past, he, hlog, List.append_nil]) (.inl rfl)

/-- Where the stream task, the replays and the queue's log stay as they are, everything stays accounted for. -/
theorem Accounted.frame (h : H.Accounted now) (he : H.engine (now + 1) = e')
    (htask : e'.lifecycle.task? = (H.engine now).lifecycle.task?)
    (hreplays : e'.replays = (H.engine now).replays)
    (hlog : e'.shared.outbound.log = (H.past now).outbound.log) : H.Accounted (now + 1) :=
  h.keep he (fun _ ht => .inr (htask ▸ ht)) (fun _ ha => .inr (hreplays ▸ ha)) hlog

/-! ### The stream task -/

/-- A step of the stream task: what it takes has arrived now, and what it queues is queued by an event under
way. -/
theorem TaskSound.step {t t' : Stream.Task ρ} {cancelled : Bool} {clock : Nat} (h : H.TaskSound now t)
    (htaken : ∀ b, t.taken? S.collaborators.source cancelled = some b →
      ∀ raw ∈ b.events, ∀ e, Event.classify raw = some e → H.arrived now e)
    (hstep : t.step S.driver S.collaborators cancelled clock (H.past now) =
      .moved (t', H.past (now + 1))) :
    H.TaskSound (now + 1) t' ∧ ∃ vs,
      (H.past (now + 1)).outbound.log = (H.past now).outbound.log ++ vs ∧
        (vs = [] ∨ ∃ v, vs = [v] ∧
          Queues S.driver.router S.collaborators H.past H.arrived now v) := by
  generalize hnext : H.past (now + 1) = s' at hstep
  cases Stream.Task.step_change hstep with
  | took hc hp hn =>
    refine ⟨fun e he => ?_, [], by simp, .inl rfl⟩
    obtain ⟨raw, hraw, hclass⟩ := List.mem_filterMap.mp he
    exact ⟨now, Nat.lt_succ_self now,
      htaken _ (Stream.Task.taken?_of_next hc hp hn) raw hraw e hclass⟩
  | advanced hp ht =>
    rw [TaskSound, hp] at h
    exact ⟨Agenda.Sound.ofEvents fun e he => (h e he).later, [], by simp, .inl rfl⟩
  | surpassed hp ht =>
    rw [TaskSound, hp] at h
    exact ⟨Agenda.Sound.ofEvents fun e he => (h e he).later, [], by simp, .inl rfl⟩
  | handled hp ha =>
    rw [TaskSound, hp] at h
    rw [← hnext] at ha ⊢
    exact Agenda.step_sound h ha
  | _ => exact ⟨trivial, [], by simp, .inl rfl⟩

/-! ### The engine -/

theorem outbound_abort_loop (l : Submission.Loop) (s : Shared χ σ π) :
    (l.abort s).outbound = s.outbound := by
  unfold Submission.Loop.abort
  split <;> rfl

theorem outbound_eventsOf (hash : String) (s : Shared χ σ π) :
    (S.eventsOf hash s).2.outbound = s.outbound := by
  unfold eventsOf
  split <;> rfl

/-- The events of a replay that begins arrive. -/
theorem arrived_of_eventsOf {hash : String} {events : List Event} {shared : Shared χ σ π}
    (hmove : H.move now = some (.replay hash))
    (h : S.eventsOf hash (H.past now) = (.ok events, shared)) :
    ∀ e ∈ events, Arrived H.arrived (now + 1) e := by
  intro e he
  unfold eventsOf at h
  split at h
  next raws chain hraws =>
    cases h
    obtain ⟨raw, hraw, hclass⟩ := List.mem_filterMap.mp he
    have hdelivers : S.delivers (H.engine now) (.replay hash) = raws := by
      simp only [delivers]
      rw [show (H.engine now).shared = H.past now from rfl, hraws]
    exact ⟨now, Nat.lt_succ_self now, _, hmove, raw, by rw [hdelivers]; exact hraw, hclass⟩
  next => cases h

/-- The events of a block that the stream task takes arrive. -/
theorem arrived_of_taken {run : Run ρ} {task : Stream.Task ρ} (hmove : H.move now = some .stream)
    (hr : (H.engine now).lifecycle.run? = some run) (ht : run.stream = some task) (b : Chain.Block)
    (htaken : task.taken? S.collaborators.source run.cancelled = some b) :
    ∀ raw ∈ b.events, ∀ e, Event.classify raw = some e → H.arrived now e := by
  intro raw hraw e hclass
  refine ⟨.stream, hmove, raw, ?_, hclass⟩
  simp only [delivers, hr, ht, Option.bind_some, htaken]
  exact hraw

theorem Accounted.streamMoved (h : H.Accounted now) {run : Run ρ} {task task' : Stream.Task ρ}
    {shared : Shared χ σ π} (hmove : H.move now = some .stream)
    (hr : (H.engine now).lifecycle.run? = some run) (ht : run.stream = some task)
    (hs : task.step S.driver S.collaborators run.cancelled (H.engine now).now (H.past now) =
      .moved (task', shared))
    (he : H.engine (now + 1) =
      { H.engine now with
        shared
        lifecycle := (H.engine now).lifecycle.mapRun fun run => { run with stream := some task' } }) :
    H.Accounted (now + 1) := by
  have htask : (H.engine now).lifecycle.task? = some task := by rw [Lifecycle.task?, hr]; exact ht
  have hnext : shared = H.past (now + 1) := by rw [past, he]
  rw [hnext] at hs
  obtain ⟨hsound, vs, hlog, hvs⟩ := (h.task task htask).step (arrived_of_taken hmove hr ht) hs
  refine ⟨fun t ht' => ?_, fun a ha => ?_, h.queue_append hlog hvs⟩
  · rw [he, Lifecycle.task?, Lifecycle.run?_mapRun, hr] at ht'
    obtain rfl := Option.some.inj ht'
    exact hsound
  · rw [he] at ha
    exact (h.replays a ha).later

theorem Accounted.streamEnded (h : H.Accounted now) {id : Nat} {r : Report}
    (he : H.engine (now + 1) = endStream (H.engine now) id r) : H.Accounted (now + 1) := by
  refine h.keep he (fun t ht => ?_) (fun a ha => .inr ?_) ?_
  · rw [task?_endStream] at ht
    cases ht
  · rw [replays_endStream] at ha
    exact ha
  · rw [shared_endStream]
    rfl

/-- A run that begins has delivered nothing yet. -/
theorem Accounted.spawned (h : H.Accounted now) {shared : Shared χ σ π} {height : Option Chain.Height}
    (hlog : shared.outbound.log = (H.past now).outbound.log)
    (he : H.engine (now + 1) = Engine.spawn { H.engine now with shared } height) :
    H.Accounted (now + 1) := by
  refine h.keep he (fun t ht => .inl ?_) (fun a ha => .inr ha) hlog
  obtain rfl := Option.some.inj ht
  trivial

theorem Accounted.aborted (h : H.Accounted now) {run : Run ρ} {joining : Joining}
    (he : H.engine (now + 1) = abort (H.engine now) run joining) : H.Accounted (now + 1) := by
  cases joining with
  | stream =>
    rw [abort] at he
    exact h.streamEnded he
  | submitter =>
    exact h.frame he (Lifecycle.task?_mapRun _ fun _ => rfl) rfl
      (congrArg Queue.log (outbound_abort_loop _ _))
  | delivery => exact h.frame he (Lifecycle.task?_mapRun _ fun _ => rfl) rfl rfl

theorem Accounted.replayBegun (h : H.Accounted now) {hash : String} {events : List Event}
    {shared : Shared χ σ π} (hmove : H.move now = some (.replay hash))
    (hs : S.eventsOf hash (H.past now) = (.ok events, shared))
    (he : H.engine (now + 1) =
      { H.engine now with shared, replays := (H.engine now).replays ++ [.ofEvents events] }) :
    H.Accounted (now + 1) := by
  have hout := outbound_eventsOf (S := S) hash (H.past now)
  rw [hs] at hout
  refine h.keep he (fun t ht => .inr ht) (fun a ha => ?_) (congrArg Queue.log hout)
  rcases List.mem_append.mp ha with ha | ha
  · exact .inr ha
  · obtain rfl := List.mem_singleton.mp ha
    exact .inl (Agenda.Sound.ofEvents (arrived_of_eventsOf hmove hs))

theorem Accounted.replayMoved (h : H.Accounted now) {i : Nat} {agenda agenda' : Agenda}
    {shared : Shared χ σ π} (hi : (H.engine now).replays[i]? = some agenda)
    (ha : agenda.step S.driver.router S.collaborators (H.past now) = .moved (agenda', shared))
    (he : H.engine (now + 1) =
      { H.engine now with shared, replays := (H.engine now).replays.set i agenda' }) :
    H.Accounted (now + 1) := by
  have hsound := h.replays agenda (List.mem_of_getElem? hi)
  have hnext : shared = H.past (now + 1) := by rw [past, he]
  rw [hnext] at ha
  obtain ⟨hagenda, vs, hlog, hvs⟩ := Agenda.step_sound hsound ha
  refine ⟨fun t ht => ?_, fun a ha' => ?_, h.queue_append hlog hvs⟩
  · rw [he] at ht
    exact (h.task t ht).later
  · rw [he] at ha'
    rcases List.mem_or_eq_of_mem_set ha' with ha' | rfl
    · exact (h.replays a ha').later
    · exact hagenda

theorem Accounted.replayCrashed (h : H.Accounted now) {i : Nat}
    (he : H.engine (now + 1) =
      { H.engine now with replays := (H.engine now).replays.set i (.ofEvents []) }) :
    H.Accounted (now + 1) := by
  refine h.keep he (fun t ht => .inr ht) (fun a ha => ?_) rfl
  rcases List.mem_or_eq_of_mem_set ha with ha | rfl
  · exact .inr ha
  · exact .inl (Agenda.Sound.ofEvents fun e hmem => absurd hmem List.not_mem_nil)

/-- Everything is accounted for after a move. -/
theorem Accounted.move (h : H.Accounted now) {m : Move} (hmove : H.move now = some m)
    (hchange : Change S (H.engine now) m (H.engine (now + 1))) : H.Accounted (now + 1) := by
  generalize he : H.engine (now + 1) = e' at hchange
  cases hchange with
  | still => exact h.frame he rfl rfl rfl
  | streamMoved hr ht hx hs => exact h.streamMoved hmove hr ht hs he
  | streamExited hr ht hx => exact h.streamEnded he
  | streamCrashed hr ht hx hs => exact h.streamEnded he
  | loopMoved hr hl =>
    exact h.frame he (Lifecycle.task?_mapRun _ fun _ => rfl) rfl (Submission.Loop.step_change hl).log
  | deliveryMoved hr hd => exact h.frame he (Lifecycle.task?_mapRun _ fun _ => rfl) rfl rfl
  | streamJoined hl hj => exact h.frame he (by rw [hl]; rfl) rfl rfl
  | loopJoined hl hj => exact h.frame he (by rw [hl]; rfl) rfl rfl
  | @deliveryJoined run deadline next hl hj =>
    cases next with
    | stop => exact h.keep he (fun t ht => by cases ht) (fun a ha => .inr ha) rfl
    | start height =>
      refine h.spawned ?_ he
      rfl
  | aborted hl hj hd => exact h.aborted he
  | spawned hl hm => exact h.spawned rfl he
  | replaced hl hf => exact h.frame he (by rw [hl]; rfl) rfl rfl
  | restarted hl => exact h.frame he (by rw [hl]; rfl) rfl rfl
  | stopped hl => exact h.frame he (by rw [hl]; rfl) rfl rfl
  | @replayFailed hash error shared hs =>
    have hout := outbound_eventsOf (S := S) hash (H.past now)
    rw [show S.eventsOf hash (H.past now) = _ from hs] at hout
    exact h.frame he rfl rfl (congrArg Queue.log hout)
  | replayBegun hs => exact h.replayBegun hmove hs he
  | replayMoved hi ha => exact h.replayMoved hi ha he
  | replayCrashed hi ha => exact h.replayCrashed he
  | extraMoved hi hl => exact h.frame he rfl rfl (Submission.Loop.step_change hl).log
  | ticked => exact h.frame he rfl rfl rfl
  | published => exact h.frame he rfl rfl rfl
  | called => exact h.frame he rfl rfl rfl
  | dismissed => exact h.frame he rfl rfl rfl

/-- Everything is accounted for at the next moment, whatever comes next. -/
theorem Accounted.step (h : H.Accounted now) : H.Accounted (now + 1) := by
  cases hm : H.move now with
  | some m => exact h.move hm (H.applied hm ▸ apply_change S (H.engine now) m)
  | none =>
    obtain ⟨chain, source, assets, he⟩ := H.unmoved hm
    exact h.frame he rfl rfl rfl

/-- **Every queued verification was queued by the handler of an event that had been delivered.** -/
theorem accounted {shared : Shared χ σ π} (hbegin : H.engine 0 = .initial shared)
    (hlog : shared.outbound.log = []) (now : Nat) : H.Accounted now := by
  induction now with
  | zero =>
    refine ⟨fun t ht => ?_, fun a ha => ?_, fun j v hj => ?_⟩
    · rw [hbegin] at ht
      cases ht
    · rw [hbegin] at ha
      exact absurd ha List.not_mem_nil
    · rw [past, hbegin, show (Engine.initial shared : Engine χ σ ρ π).shared = shared from rfl, hlog] at hj
      cases hj
  | succ now ih => exact ih.step

end History

end Attestor.Service
