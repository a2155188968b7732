import Attestor.Proofs.Marks
import Attestor.Proofs.Routings

/-!
Tracked heights. While a task plays, its steps are put on record as marks. Each step keeps what is known of the record
(`Records.step`), so any run does. `run_tracks` says what this means at any time in a run: for the tracked height, the
starts of the stream, what is told of blocks, the exit, and the order in which events are routed.

An event is marked as turned in the step in which the router turns to it (`Task.turned_mem_turns`), and as done in the
step in which the router settles it (`Task.Change.done_mem_turns`).
-/

namespace Attestor.Stream

open Chain (Block Height)
open Contract (Event)
open Routing (Agenda)

variable {χ σ ρ π : Type}

/-! ### Steps -/

/-- The task is not busy with a block. -/
def Phase.isIdle : Phase ρ → Bool
  | .received _ _ | .handling _ _ => false
  | _ => true

namespace Task

/-- The event in hand. -/
def inHand (t : Task ρ) : List Event := (t.current?.map (·.event)).toList

/-- What was put on record of a block that is not tracked yet. -/
def fresh (t : Task ρ) : List Mark :=
  match t.phase with
  | .received b _ => [.saw (.gave b), .told (.blockReceived b.height b.events.length)]
  | _ => []

/-- The source is asked for its current height in the step ahead. -/
def looks (c : Collaborators χ σ ρ π) (t : Task ρ) (s : Shared χ σ π) : List Mark :=
  match t.phase, t.tracked with
  | .lookup, none =>
    match c.source.currentHeight s.source with
    | (.ok height, _) => [.looked height]
    | (.error _, _) => [.looked none]
  | _, _ => []

/-- What the router comes to in a step after which the task is `t'`. -/
def turns (t t' : Task ρ) : List Mark :=
  match t.current?, t.waiting, t'.current? with
  | some d, _, none => [.done d.event]
  | none, e :: _, none => [.turned e, .done e]
  | none, e :: _, some _ => [.turned e]
  | _, _, _ => []

theorem faces_iff {t : Task ρ} {e : Event} : t.Faces e ↔ t.current? = none ∧ ∃ later, t.waiting = e :: later := by
  unfold Faces current? agenda? waiting
  cases t.phase with
  | handling agenda feed =>
    obtain ⟨current, waiting⟩ := agenda
    cases current <;> simp
  | _ => simp

/-- The event that the router turns to in a step is the one that is next. -/
theorem turned_mem_turns {t t' : Task ρ} {e : Event} : .turned e ∈ t.turns t' ↔ t.Faces e := by
  rw [faces_iff]
  unfold turns
  split
  next hcurrent _ => simp [hcurrent]
  next hcurrent hwaiting _ => simp [hcurrent, hwaiting, eq_comm]
  next hcurrent hwaiting _ => simp [hcurrent, hwaiting, eq_comm]
  next hdone hboth hturned =>
    refine iff_of_false List.not_mem_nil fun ⟨hcurrent, later, hwaiting⟩ => ?_
    cases hcurrent' : t'.current? with
    | none => exact hboth e later hcurrent hwaiting hcurrent'
    | some d => exact hturned e later d hcurrent hwaiting hcurrent'

theorem turns_eq_nil {t t' : Task ρ} (hcurrent : t.current? = none) (hnone : ∀ e, ¬ t.Faces e) : t.turns t' = [] := by
  unfold turns
  rw [hcurrent]
  split
  next heq _ => cases heq
  next hwaiting _ => exact absurd (faces_iff.mpr ⟨hcurrent, _, hwaiting⟩) (hnone _)
  next hwaiting _ => exact absurd (faces_iff.mpr ⟨hcurrent, _, hwaiting⟩) (hnone _)
  next => rfl

/-- The router is done with the event in the step ahead: its handler is over, or a filter drops it. -/
def Settles (r : Routing.Router) (t : Task ρ) (e : Event) : Prop :=
  (∃ d ending, t.current? = some d ∧ d.event = e ∧ d.activity.ending? = some ending) ∨
    t.Faces e ∧ ∃ outcome reason, r.direct e = .ignore outcome reason

/-- What is put on record of a step. -/
def marks (c : Collaborators χ σ ρ π) (cancelled : Bool) (t t' : Task ρ) (s s' : Shared χ σ π) : List Mark :=
  t.looks c s ++ (t.signs c cancelled s).map .saw ++ t.turns t' ++
    if t.agenda?.isSome then [] else (Chronicle.news s s').map .told

instance : Recorder (List Mark) := ⟨[], fun c cancelled _ t t' s s' log => log ++ t.marks c cancelled t' s s'⟩

theorem waiting_of_agenda? {t : Task ρ} (h : t.agenda? = none) : t.waiting = [] := by
  cases hp : t.phase with
  | handling agenda feed =>
    rw [agenda?, hp] at h
    cases h
  | _ => rw [waiting, hp]

/-- The step is the router's: it reports how the handler has ended, or tells why the event is dropped. -/
theorem Settles.step {d : Driver} {t : Task ρ} {e : Event} (h : t.Settles d.router e) (c : Collaborators χ σ ρ π)
    (cancelled : Bool) (now : Nat) (s : Shared χ σ π) :
    ∃ waiting feed s', t.step d c cancelled now s = .moved ({ t with phase := .handling ⟨none, waiting⟩ feed }, s') ∧
      ((∃ kind ending, s' = Routing.report e kind ending s) ∨ ∃ reason, s' = s.publish (.ignored e reason)) := by
  rcases h with ⟨dispatch, ending, hcurrent, rfl, hending⟩ | ⟨hfaces, outcome, reason, hignored⟩
  · obtain ⟨⟨current, waiting⟩, hagenda, rfl : current = _⟩ := Option.bind_eq_some_iff.mp hcurrent
    unfold agenda? at hagenda
    split at hagenda
    next agenda feed hp =>
      cases hagenda
      refine ⟨waiting, feed, _, ?_, .inl ⟨dispatch.kind, ending, rfl⟩⟩
      simp only [Task.step, hp, Agenda.step, Agenda.handle, hending, enter]
    next => cases hagenda
  · obtain ⟨waiting, feed, -, hstep⟩ := hfaces.step d c cancelled now s
    refine ⟨waiting, feed, _, ?_, .inr ⟨reason, rfl⟩⟩
    rw [hstep]
    simp only [Agenda.turn, hignored, Progress.map]

/-- An event is done in the step in which the router settles it. -/
theorem Change.done_mem_turns {d : Driver} {c : Collaborators χ σ ρ π} {cancelled : Bool} {now : Nat} {t t' : Task ρ}
    {s s' : Shared χ σ π} (h : Change d c cancelled now t s t' s') {e : Event} :
    .done e ∈ t.turns t' ↔ t.Settles d.router e := by
  rcases h.current with ⟨agenda, feed, agenda', hp, rfl, ha⟩ | ⟨⟨hcurrent, -⟩, hnote, -⟩
  · rw [Settles, faces_iff]
    simp only [turns, current?, agenda?, waiting, hp]
    cases Agenda.step_change ha with
    | ended hending => simp [hending, eq_comm]
    | acted hx hafter hturns =>
      refine iff_of_false List.not_mem_nil ?_
      rintro (⟨_, ending, ⟨⟩, -, hending⟩ | ⟨⟨⟨⟩, -⟩, -⟩)
      rw [Handler.Activity.effect?_of_ending hending] at hx
      cases hx
    | ignored hdirect =>
      simp only [Option.bind_some, List.mem_cons, reduceCtorEq, Mark.done.injEq, List.not_mem_nil, or_false, false_or]
      constructor
      · rintro rfl
        exact .inr ⟨⟨trivial, _, rfl⟩, _, _, hdirect⟩
      · rintro (⟨_, _, ⟨⟩, -⟩ | ⟨⟨-, _, ⟨⟩⟩, -⟩)
        rfl
    | called hdirect hcall =>
      refine iff_of_false (by simp) ?_
      rintro (⟨_, _, ⟨⟩, -⟩ | ⟨⟨-, _, ⟨⟩⟩, _, _, hignored⟩)
      rw [hdirect] at hignored
      cases hignored
  · have hnone : ∀ e, ¬ t.Faces e := fun e hfaces => by
      have hnoted := hfaces.routed_note cancelled
      rw [hnote] at hnoted
      cases hnoted
    rw [turns_eq_nil hcurrent hnone]
    refine iff_of_false List.not_mem_nil ?_
    rintro (⟨_, _, hsome, -⟩ | ⟨hfaces, -⟩)
    · rw [hcurrent] at hsome
      cases hsome
    · exact hnone e hfaces

/-- Where no events are on their way the router comes to nothing. -/
theorem marks_of_agenda? {c : Collaborators χ σ ρ π} {cancelled : Bool} {t t' : Task ρ} {s s' : Shared χ σ π}
    (h : t.agenda? = none) : t.marks c cancelled t' s s' =
      t.looks c s ++ (t.signs c cancelled s).map .saw ++ (Chronicle.news s s').map .told := by
  have hturns : t.turns t' = [] := by
    rw [turns, waiting_of_agenda? h, current?, h]
    rfl
  rw [marks, hturns, h, List.append_nil]
  rfl

end Task

/-- The record is that of the task, but for the block that was just taken. -/
def Records (start : Option Height) (t : Task ρ) (log : List Mark) : Prop :=
  ∃ earlier, log = earlier ++ t.fresh ∧ Kept start t.tracked t.inHand t.waiting earlier

namespace Records

variable {start : Option Height} {t t' : Task ρ} {log : List Mark} {c : Collaborators χ σ ρ π} {cancelled : Bool}
  {s s' : Shared χ σ π}

theorem agenda?_of_isIdle (ht : t.phase.isIdle = true) : t.agenda? = none := by
  unfold Task.agenda?
  split
  next hp => simp [hp, Phase.isIdle] at ht
  next => rfl

theorem iff_of_isIdle (ht : t.phase.isIdle = true) : Records start t log ↔ Kept start t.tracked [] [] log := by
  have hinHand : t.inHand = [] := by
    rw [Task.inHand, Task.current?, agenda?_of_isIdle ht]
    rfl
  have hwaiting := Task.waiting_of_agenda? (agenda?_of_isIdle ht)
  have hfresh : t.fresh = [] := by
    unfold Task.fresh
    split
    next hp => simp [hp, Phase.isIdle] at ht
    next => rfl
  unfold Records
  rw [hfresh, hinHand, hwaiting]
  constructor
  · rintro ⟨earlier, rfl, h⟩
    rwa [List.append_nil]
  · exact fun h => ⟨log, (List.append_nil log).symm, h⟩

/-- A step between phases in which the task is not busy with a block, and of which nothing is put on record that does
not state the tracked height. -/
theorem states (h : Records start t log) (ht : t.phase.isIdle = true) (ht' : t'.phase.isIdle = true)
    (htracked : t'.tracked = t.tracked) {xs : List Mark} (hxs : ∀ x ∈ xs, x.States t.tracked) :
    Records start t' (log ++ xs) := by
  rw [iff_of_isIdle ht] at h
  rw [iff_of_isIdle ht', htracked]
  induction xs generalizing log with
  | nil => rwa [List.append_nil]
  | cons x xs ih =>
    obtain ⟨hx, hxs⟩ := List.forall_mem_cons.mp hxs
    rw [List.append_cons]
    exact ih (h.state hx) hxs

/-- A step as in `states`, with all that is put on record of it. -/
theorem idle (h : Records start t log) (ht : t.phase.isIdle = true) (ht' : t'.phase.isIdle = true)
    (htracked : t'.tracked = t.tracked)
    (hmarks : ∀ x ∈ t.looks c s ++ (t.signs c cancelled s).map .saw ++ (Chronicle.news s s').map .told,
      x.States t.tracked) : Records start t' (log ++ t.marks c cancelled t' s s') := by
  rw [Task.marks_of_agenda? (agenda?_of_isIdle ht)]
  exact h.states ht ht' htracked hmarks

/-- The block that was taken is tracked, and its events wait. -/
theorem accept {b : Block} {feed : ρ} (h : Records start t log) (hp : t.phase = .received b feed) {xs : List Mark}
    (hxs : t.fresh ++ xs = blockMarks t.tracked b) (htracked : t'.tracked = track t.tracked b)
    (hp' : t'.phase = .handling (.ofEvents (classified b)) feed) : Records start t' (log ++ xs) := by
  obtain ⟨earlier, rfl, h⟩ := h
  simp only [Task.inHand, Task.waiting, Task.current?, Task.agenda?, hp] at h
  refine ⟨earlier ++ blockMarks t.tracked b, ?_, ?_⟩
  · have hfresh : t'.fresh = [] := by rw [Task.fresh, hp']
    rw [hfresh, List.append_nil, List.append_assoc, hxs]
  · rw [htracked, Task.inHand, Task.waiting, Task.current?, Task.agenda?, hp']
    exact h.accept b

/-- A step of an agenda. -/
theorem agenda {r : Routing.Router} {agenda agenda' : Agenda} {feed : ρ} (h : Records start t log)
    (hp : t.phase = .handling agenda feed) (ha : agenda.step r c s = .moved (agenda', s')) :
    Records start { t with phase := .handling agenda' feed }
      (log ++ t.marks c cancelled { t with phase := .handling agenda' feed } s s') := by
  obtain ⟨earlier, hlog, h⟩ := h
  obtain rfl : log = earlier := by rw [hlog, Task.fresh, hp, List.append_nil]
  simp only [Task.inHand, Task.waiting, Task.current?, Task.agenda?, hp] at h
  have hmarks : t.marks c cancelled { t with phase := .handling agenda' feed } s s' =
      t.turns { t with phase := .handling agenda' feed } := by
    simp [Task.marks, Task.looks, Task.signs, Task.agenda?, hp]
  refine ⟨_, (List.append_nil _).symm, ?_⟩
  rw [hmarks]
  simp only [Task.turns, Task.inHand, Task.waiting, Task.current?, Task.agenda?, hp]
  cases Agenda.step_change ha with
  | ended _ => exact h.done
  | acted _ _ _ => simpa using h
  | ignored _ => simpa using h.turn.done
  | called _ _ => exact h.turn

/-- Every step keeps the record. -/
theorem step {d : Driver} {now : Nat} (h : Records start t log)
    (hchange : Task.Change d c cancelled now t s t' s') : Records start t' (log ++ t.marks c cancelled t' s s') := by
  cases hchange with
  | known hp hx =>
    refine h.idle (by rw [hp]; rfl) (by rfl) (by rfl) ?_
    simp [Task.looks, Task.signs, hp, hx]
  | found hp ht hh | unknown hp ht hh =>
    have hidle : t.phase.isIdle = true := by rw [hp]; rfl
    rw [iff_of_isIdle hidle, ht] at h
    rw [iff_of_isIdle (by rfl)]
    simpa [Task.marks_of_agenda? (agenda?_of_isIdle hidle), Task.looks, Task.signs, hp, ht, hh] using h.look _
  | dismissed hc hp =>
    have hidle : t.phase.isIdle = true := by
      rcases hp with hp | ⟨_, hp⟩ | ⟨_, _, hp⟩ <;> rw [hp] <;> rfl
    refine h.idle hidle (by rfl) (by rfl) ?_
    rcases hp with hp | ⟨_, hp⟩ | ⟨_, _, hp⟩ <;> simp [Task.looks, Task.signs, hp, hc, Mark.States, tracked?]
  | opened hc hp hx | refused hc hp hx | broke hc hp hx | completed hc hp hx =>
    refine h.idle (by rw [hp]; rfl) (by rfl) (by rfl) ?_
    simp [Task.looks, Task.signs, hp, hc, hx, Mark.States, tracked?]
  | quit hp | gaveUp hp | restarting hp | restarted _ hp =>
    refine h.idle (by rw [hp]; rfl) (by rfl) (by rfl) ?_
    simp [Task.looks, Task.signs, hp, Mark.States, tracked?]
  | took hc hp hn =>
    have hidle : t.phase.isIdle = true := by rw [hp]; rfl
    refine ⟨log, ?_, (iff_of_isIdle hidle).mp h⟩
    simp [Task.marks_of_agenda? (agenda?_of_isIdle hidle), Task.looks, Task.signs, Task.fresh, hp, hc, hn]
  | advanced hp ht =>
    refine h.accept hp ?_ (if_pos ht).symm (by rfl)
    rw [Task.marks_of_agenda? (by rw [Task.agenda?, hp])]
    simp [Task.fresh, Task.looks, Task.signs, blockMarks, announcement, hp, ht]
  | surpassed hp ht =>
    refine h.accept hp ?_ (if_neg ht).symm (by rfl)
    rw [Task.marks_of_agenda? (by rw [Task.agenda?, hp])]
    simp [Task.fresh, Task.looks, Task.signs, blockMarks, announcement, hp, ht]
  | handled hp ha => exact h.agenda hp ha
  | settled hp ha =>
    rw [Agenda.of_step_over ha] at hp
    obtain ⟨earlier, hlog, h⟩ := h
    simp only [Task.inHand, Task.waiting, Task.current?, Task.agenda?, hp] at h
    refine ⟨earlier, ?_, h⟩
    simp [Task.marks, Task.fresh, Task.looks, Task.signs, Task.turns, Task.current?, Task.agenda?, Task.waiting, hp,
      hlog]

end Records

/-! ### Runs -/

/-- The tracked height never decreases. -/
theorem Task.Change.tracked_le {d : Driver} {c : Collaborators χ σ ρ π} {cancelled : Bool} {now : Nat} {t t' : Task ρ}
    {s s' : Shared χ σ π} (h : Task.Change d c cancelled now t s t' s') : t.tracked ≤ t'.tracked := by
  cases h with
  | found _ ht _ =>
    rw [ht]
    exact Option.none_le
  | @advanced b feed _ ht =>
    have htrack : track t.tracked b = some b.height := if_pos ht
    exact htrack ▸ le_track t.tracked b
  | _ => exact height_le_refl _

/-- A step that announces an exit puts nothing else on record. -/
theorem Task.Change.exits {d : Driver} {c : Collaborators χ σ ρ π} {cancelled : Bool} {now : Nat} {t t' : Task ρ}
    {s s' : Shared χ σ π} (h : Task.Change d c cancelled now t s t' s') {exit : Exit} (hx : t'.exit? = some exit) :
    exit.lastHeight = t'.tracked ∧ t.marks c cancelled t' s s' = [.told (.exited exit)] := by
  cases h with
  | dismissed hc hp =>
    cases hx
    refine ⟨rfl, ?_⟩
    have hagenda : t.agenda? = none := by
      rcases hp with hp | ⟨_, hp⟩ | ⟨_, _, hp⟩ <;> rw [agenda?, hp]
    rcases hp with hp | ⟨_, hp⟩ | ⟨_, _, hp⟩ <;> simp [marks_of_agenda? hagenda, looks, signs, hp, hc]
  | quit hp | gaveUp hp =>
    cases hx
    have hagenda : t.agenda? = none := by rw [agenda?, hp]
    exact ⟨rfl, by simp [marks_of_agenda? hagenda, looks, signs, hp]⟩
  | _ => cases hx

/-- Nor does it decrease in a run. -/
theorem Played.tracked_le_run {R : Type} [Recorder R] {d : Driver} {c : Collaborators χ σ ρ π} {p : Played R χ σ ρ π}
    (turns : List (Turn χ σ π)) : p.task.tracked ≤ (p.run d c turns).task.tracked :=
  p.run_induction (P := fun t _ _ => p.task.tracked ≤ t.tracked) turns
    (fun _ _ => fun h hchange => height_le_trans h hchange.tracked_le) (height_le_refl _)

/-- What the record of a run says. If a block was just taken, and the task has not yet come to track it, all that stands
before this block is `earlier`; otherwise that is the whole record. -/
structure Tracks (start : Option Height) (t : Task ρ) (log earlier : List Mark) : Prop where
  before : log = earlier ++ t.fresh
  /-- The tracked height is the maximum of the first known starting height and the heights of all blocks. -/
  maximum : t.tracked = (heights start earlier).max?
  /-- It is unknown until a starting height is given, the source reports one, or a block comes. -/
  unknown : t.tracked = none ↔ start = none ∧ (∀ height, .looked (some height) ∉ earlier) ∧ taken earlier = []
  announced : told earlier = advances (known start earlier).toList (taken earlier)
  /-- The router has turned to the events of the blocks in their order, up to those that wait
  (`Task.turned_mem_turns`), and has settled them, but for the event in hand (`Task.Change.done_mem_turns`). -/
  routed : turned earlier ++ t.waiting = (taken earlier).flatMap classified ∧ turned earlier = done earlier ++ t.inHand
  ascending : (starts log).Pairwise (· ≤ ·)
  fitting : Fitting (Fits start) log
  exit : ∀ exit, t.exit? = some exit →
    exit.lastHeight = t.tracked ∧ ∃ past : List Mark, log = past ++ [.told (.exited exit)]

theorem heights_eq_nil_iff {start : Option Height} {log : List Mark} :
    heights start log = [] ↔ start = none ∧ (∀ height, .looked (some height) ∉ log) ∧ taken log = [] := by
  have hfound : log.findSome? Mark.found? = none ↔ ∀ height, .looked (some height) ∉ log := by
    rw [List.findSome?_eq_none_iff]
    refine ⟨fun h height hmem => Option.some_ne_none _ (h _ hmem), fun h x hx => ?_⟩
    cases x with
    | looked height =>
      cases height with
      | none => rfl
      | some height => exact absurd hx (h height)
    | _ => rfl
  rw [heights, List.append_eq_nil_iff, List.map_eq_nil_iff, Option.toList_eq_nil_iff, known, Option.or_eq_none_iff,
    hfound, and_assoc]

theorem Records.tracks {start : Option Height} {t : Task ρ} {log : List Mark} (h : Records start t log)
    (hexit : ∀ exit, t.exit? = some exit →
      exit.lastHeight = t.tracked ∧ ∃ past : List Mark, log = past ++ [.told (.exited exit)]) :
    ∃ earlier, Tracks start t log earlier := by
  obtain ⟨earlier, rfl, h⟩ := h
  refine ⟨earlier, rfl, h.maximum, ?unknown, h.told, ⟨h.waiting, h.inHand⟩, ?ascending, ?fitting, hexit⟩
  case unknown => rw [h.maximum, List.max?_eq_none_iff, heights_eq_nil_iff]
  case ascending =>
    have hfresh : Stream.starts t.fresh = [] := by
      unfold Task.fresh
      split <;> rfl
    rw [starts_append, hfresh, List.append_nil]
    exact h.starts
  case fitting =>
    unfold Task.fresh
    split
    next b feed hp =>
      simp only [Task.inHand, Task.waiting, Task.current?, Task.agenda?, hp] at h
      exact h.fitting_received b
    next =>
      rw [List.append_nil]
      exact h.fitting

/-- **The tracked height is the greatest that was known**, whatever the source, the start and the restart mode are,
whenever the task makes its steps and whenever it is cancelled, and whatever others do in between. It never decreases;
starts and diagnostics state what it is at the time; and all events of a block are routed before anything more is taken
from the source, or the exit is told. -/
theorem run_tracks (d : Driver) (c : Collaborators χ σ ρ π) (start : Option Height) (s : Shared χ σ π)
    (turns more : List (Turn χ σ π)) :
    let p : Played (List Mark) χ σ ρ π := .begin start s
    (∃ earlier, Tracks start (p.run d c turns).task (p.run d c turns).record earlier) ∧
      (p.run d c turns).task.tracked ≤ (p.run d c (turns ++ more)).task.tracked := by
  intro p
  constructor
  · have hrun := p.run_induction (d := d) (c := c)
      (P := fun t _ log => Records start t log ∧ ∀ exit, t.exit? = some exit →
        exit.lastHeight = t.tracked ∧ ∃ past : List Mark, log = past ++ [.told (.exited exit)]) turns
      (fun _ _ => fun ⟨hrecords, _⟩ hchange => ⟨hrecords.step hchange, fun exit hx => ?_⟩)
      ⟨(Records.iff_of_isIdle rfl).mpr (.begin start), nofun⟩
    · exact hrun.1.tracks hrun.2
    · obtain ⟨hlast, hmarks⟩ := hchange.exits hx
      exact ⟨hlast, _, congrArg (_ ++ ·) hmarks⟩
  · rw [Played.run_append]
    exact Played.tracked_le_run more

/-- The source refuses the first start, and cannot tell a height until later. Of the blocks from the second start one is
lower than the one before, and one comes twice. -/
example :
    let source : Script :=
      { Script.empty with
        runs := [.error ⟨"refused", true⟩, .ok ⟨[.ok ⟨8, []⟩, .ok ⟨3, []⟩, .ok ⟨8, []⟩], .completes⟩]
        heightFailure := some ⟨"down", true⟩ }
    let recovers : Shared Chain.Ledger Script Asset.Fixed → Shared Chain.Ledger Script Asset.Fixed := fun s =>
      { s with source := { s.source with height := some 6, heightFailure := none } }
    let p := (Played.begin (R := List Mark) none { Routing.Sample.shared with source }).run
      ⟨Routing.Sample.router, .enabled ⟨100, .fixed⟩⟩ Routing.Sample.collaborators
      (List.replicate 3 ⟨false, 0, id⟩ ++ [⟨false, 100, recovers⟩] ++ List.replicate 13 ⟨false, 100, id⟩ ++
        List.replicate 4 ⟨false, 200, id⟩)
    p.task.tracked = some 8 ∧ starts p.record = [none, some 6, some 8] ∧ (taken p.record).map (·.height) = [8, 3, 8] ∧
      (told p.record).map Diagnostic.name =
        ["block_received", "height_advanced", "block_received", "block_received", "height_advanced"] := by
  decide +kernel

end Attestor.Stream
