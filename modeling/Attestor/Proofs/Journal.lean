import Attestor.Proofs.Logs
import Attestor.Proofs.Transitions

/-!
Journals of the stream task. While a task plays, it is noted when it starts the stream, which blocks it turns to,
and which events it routes. Between two steps of the task anything may happen to the state that it shares with
others. Whatever the source is, the events that are routed are those that were classified, block by block and in
their order: what is missing waits on the agenda (`Thorough.routed`), and no block is turned to before all events
of the blocks before it have been routed (`Thorough.settled`).

An event is noted in the step in which the router turns to it, and in no other (`Task.routed_mem_note`,
`Task.Faces.step`). Beside its journal a task that plays can keep a record of any kind that grows with its steps
(`Recorder`); what every step keeps of journal and record holds after any number of turns (`Played.run_induction`).
-/

namespace Attestor.Stream

open Chain (Block Height)
open Contract (Event)
open Routing (Agenda)

variable {χ σ ρ π : Type}

/-! ### Journals -/

/-- Something that a stream task does. -/
inductive Note where
  /-- The stream is started from the tracked height. -/
  | opened (height : Option Height)
  /-- The task turns to the events of a block. -/
  | began (block : Block)
  /-- An event is routed. -/
  | routed (event : Event)

namespace Note

def block? : Note → Option Block
  | .began b => some b
  | _ => none

def event? : Note → Option Event
  | .routed e => some e
  | _ => none

end Note

/-- The blocks in a journal, in the order in which the task turned to them. -/
def blocks (log : List Note) : List Block :=
  log.filterMap Note.block?

/-- The events in a journal, in the order in which they were routed. -/
def routed (log : List Note) : List Event :=
  log.filterMap Note.event?

/-- The events of a block that are the contract's. -/
def classified (b : Block) : List Event :=
  b.events.filterMap Event.classify

theorem blocks_append (log log' : List Note) : blocks (log ++ log') = blocks log ++ blocks log' :=
  List.filterMap_append

theorem routed_append (log log' : List Note) : routed (log ++ log') = routed log ++ routed log' :=
  List.filterMap_append

namespace Task

/-- What is noted of the step ahead, if it moves. -/
def note (t : Task ρ) (cancelled : Bool) : List Note :=
  match t.phase with
  | .opening => if cancelled then [] else [.opened t.tracked]
  | .received b _ => [.began b]
  | .handling ⟨none, e :: _⟩ _ => [.routed e]
  | _ => []

/-- The event is the next one to be routed. -/
def Faces (t : Task ρ) (e : Event) : Prop := ∃ waiting feed, t.phase = .handling ⟨none, e :: waiting⟩ feed

theorem routed_mem_note {t : Task ρ} {cancelled : Bool} {e : Event} : .routed e ∈ t.note cancelled ↔ t.Faces e := by
  unfold note Faces
  split
  next hp => cases cancelled <;> simp [hp]
  next hp => simp [hp]
  next x waiting feed hp => simp [hp, eq_comm]
  next hother => simpa using fun waiting feed => hother e waiting feed

theorem Faces.routed_note {t : Task ρ} {e : Event} (h : t.Faces e) (cancelled : Bool) :
    e ∈ routed (t.note cancelled) :=
  List.mem_filterMap.mpr ⟨_, routed_mem_note.mpr h, rfl⟩

/-- The step in which an event is noted is that of the router which turns to it. If its handler panics when it is
called, so does the task. -/
theorem Faces.step {t : Task ρ} {e : Event} (h : t.Faces e) (d : Driver) (c : Collaborators χ σ ρ π) (cancelled : Bool)
    (now : Nat) (s : Shared χ σ π) :
    ∃ waiting feed, t.phase = .handling ⟨none, e :: waiting⟩ feed ∧ t.step d c cancelled now s =
      (Agenda.turn d.router e waiting s).map fun next => ({ t with phase := .handling next.1 feed }, next.2) := by
  obtain ⟨waiting, feed, hp⟩ := h
  refine ⟨waiting, feed, hp, ?_⟩
  simp only [Task.step, hp, Agenda.step, Agenda.turn]
  cases d.router.direct e with
  | ignore outcome reason => rfl
  | handle kind handler =>
    dsimp only
    cases d.router.call e handler <;> rfl

/-- The events of the current block that have not been routed yet. -/
def waiting (t : Task ρ) : List Event :=
  match t.phase with
  | .handling agenda _ => agenda.waiting
  | _ => []

end Task

/-! ### Playing -/

/-- A chance for the task to make a step: what it finds when it comes to it. -/
structure Turn (χ σ π : Type) where
  cancelled : Bool
  now : Nat
  /-- What others have done to the shared state since. -/
  others : Shared χ σ π → Shared χ σ π

/-- How a record of this type is kept of the steps of a task. -/
class Recorder (R : Type) where
  /-- Nothing is on record. -/
  blank : R
  /-- The record after a step, with the task and the shared state before the step and after it. -/
  next {χ σ ρ π : Type} (c : Collaborators χ σ ρ π) (cancelled : Bool) (now : Nat) (t t' : Task ρ)
    (s s' : Shared χ σ π) (record : R) : R

/-- Nothing is kept beside the journal. -/
instance : Recorder Unit := ⟨(), fun _ _ _ _ _ _ _ _ => ()⟩

/-- A task with its journal, and with a record of its steps. -/
structure Played (R χ σ ρ π : Type) where
  task : Task ρ
  shared : Shared χ σ π
  journal : List Note
  record : R

namespace Played

variable {R : Type} [Recorder R]

/-- A task that is put on record from now on. -/
def fresh (t : Task ρ) (s : Shared χ σ π) : Played R χ σ ρ π := ⟨t, s, [], Recorder.blank⟩

/-- A task that has not begun. -/
def begin (height : Option Height) (s : Shared χ σ π) : Played R χ σ ρ π := fresh (.begin height) s

/-- The task makes a step, if it can. -/
def turn (d : Driver) (c : Collaborators χ σ ρ π) (p : Played R χ σ ρ π) (x : Turn χ σ π) : Played R χ σ ρ π :=
  match p.task.step d c x.cancelled x.now (x.others p.shared) with
  | .moved (task, shared) =>
    ⟨task, shared, p.journal ++ p.task.note x.cancelled,
      Recorder.next c x.cancelled x.now p.task task (x.others p.shared) shared p.record⟩
  | _ => { p with shared := x.others p.shared }

/-- The task makes steps. -/
def run (d : Driver) (c : Collaborators χ σ ρ π) (p : Played R χ σ ρ π) (turns : List (Turn χ σ π)) :
    Played R χ σ ρ π :=
  turns.foldl (turn d c) p

/-- The task after so many turns. -/
def after (d : Driver) (c : Collaborators χ σ ρ π) (p : Played R χ σ ρ π) (turns : Nat → Turn χ σ π) (n : Nat) :
    Played R χ σ ρ π :=
  p.run d c ((List.range n).map turns)

variable {d : Driver} {c : Collaborators χ σ ρ π} {p : Played R χ σ ρ π}

theorem turn_of_moved {x : Turn χ σ π} {t : Task ρ} {s : Shared χ σ π}
    (h : p.task.step d c x.cancelled x.now (x.others p.shared) = .moved (t, s)) :
    p.turn d c x = ⟨t, s, p.journal ++ p.task.note x.cancelled,
      Recorder.next c x.cancelled x.now p.task t (x.others p.shared) s p.record⟩ := by
  rw [turn, h]

theorem run_append (turns more : List (Turn χ σ π)) : p.run d c (turns ++ more) = (p.run d c turns).run d c more :=
  List.foldl_append

theorem after_add (turns : Nat → Turn χ σ π) (m n : Nat) :
    p.after d c turns (m + n) = (p.after d c turns m).run d c ((List.range n).map fun i => turns (m + i)) := by
  rw [after, List.range_add, List.map_append, run_append, List.map_map]
  rfl

theorem after_succ (turns : Nat → Turn χ σ π) (n : Nat) :
    p.after d c turns (n + 1) = (p.after d c turns n).turn d c (turns n) :=
  p.after_add turns n 1

/-- What every step keeps holds after any number of turns. -/
theorem run_induction {P : Task ρ → List Note → R → Prop} (turns : List (Turn χ σ π))
    (hstep : ∀ x ∈ turns, ∀ {t t' log record s s'}, P t log record →
      Task.Change d c x.cancelled x.now t s t' s' →
      P t' (log ++ t.note x.cancelled) (Recorder.next c x.cancelled x.now t t' s s' record))
    (h : P p.task p.journal p.record) :
    P (p.run d c turns).task (p.run d c turns).journal (p.run d c turns).record := by
  induction turns generalizing p with
  | nil => exact h
  | cons x turns ih =>
    refine ih (fun y hy => hstep y (List.mem_cons_of_mem x hy)) (p := p.turn d c x) ?_
    unfold turn
    split
    next hmoved => exact hstep x (List.mem_cons_self ..) h (Task.step_change hmoved)
    next => exact h

end Played

/-! ### A task that goes no further -/

/-- The task goes no further, as a routing that has ended so. -/
def Task.Stuck (d : Driver) (c : Collaborators χ σ ρ π) (t : Task ρ) : Routing.Routed → Prop
  | .settled _ => False
  | .hung => ∀ cancelled now s, t.step d c cancelled now s = .blocked
  | .crashed p => ∀ cancelled now s, t.step d c cancelled now s = .crashed p

theorem Task.Stuck.not_moved {d : Driver} {c : Collaborators χ σ ρ π} {t : Task ρ} {how : Routing.Routed}
    (h : t.Stuck d c how) (cancelled : Bool) (now : Nat) (s : Shared χ σ π) (next : Task ρ × Shared χ σ π) :
    t.step d c cancelled now s ≠ .moved next := by
  intro hmoved
  cases how with
  | settled outcome => exact h
  | hung =>
    rw [h cancelled now s] at hmoved
    cases hmoved
  | crashed p =>
    rw [h cancelled now s] at hmoved
    cases hmoved

/-- A task that is stuck stays where it is, whatever others do. -/
theorem Played.stays_of_stuck {R : Type} [Recorder R] {d : Driver} {c : Collaborators χ σ ρ π} {p : Played R χ σ ρ π}
    {how : Routing.Routed} (h : p.task.Stuck d c how) (turns : List (Turn χ σ π)) :
    (p.run d c turns).task = p.task ∧ (p.run d c turns).journal = p.journal := by
  induction turns generalizing p with
  | nil => exact ⟨rfl, rfl⟩
  | cons x turns ih =>
    have hturn : p.turn d c x = { p with shared := x.others p.shared } := by
      unfold turn
      split
      next hmoved => exact absurd hmoved (h.not_moved _ _ _ _)
      next => rfl
    rw [run, List.foldl_cons, hturn]
    exact ih (p := { p with shared := x.others p.shared }) h

/-! ### All events are routed, in their order -/

/-- A step of an agenda goes on with an event, or turns to the next one that waits. -/
theorem waiting_of_step {r : Routing.Router} {c : Collaborators χ σ ρ π} {a a' : Agenda}
    {s s' : Shared χ σ π} (h : a.step r c s = .moved (a', s')) :
    (a.current ≠ none ∧ a'.waiting = a.waiting) ∨
      ∃ e, a.current = none ∧ a.waiting = e :: a'.waiting := by
  cases Agenda.step_change h with
  | ended hending => exact .inl ⟨nofun, rfl⟩
  | acted hx hafter hturns => exact .inl ⟨nofun, rfl⟩
  | ignored hdirect => exact .inr ⟨_, rfl, rfl⟩
  | called hdirect hcall => exact .inr ⟨_, rfl, rfl⟩

/-- What was routed are the classified events of the blocks, up to those that wait. -/
structure Thorough (t : Task ρ) (log : List Note) : Prop where
  routed : routed log ++ t.waiting = (blocks log).flatMap classified
  settled : Fitting (fun pre x => ∀ b, x = .began b → Stream.routed pre = (blocks pre).flatMap classified) log

namespace Thorough

variable {t t' : Task ρ} {log : List Note}

/-- A step that notes nothing and leaves what waits. -/
theorem keep (h : Thorough t log) {cancelled : Bool} (hnote : t.note cancelled = [])
    (hwaiting : t'.waiting = t.waiting) : Thorough t' (log ++ t.note cancelled) := by
  rw [hnote, List.append_nil]
  exact ⟨by rw [hwaiting]; exact h.routed, h.settled⟩

/-- A step that notes something else than a block. -/
theorem snoc (h : Thorough t log) {x : Note} (hx : x.block? = none)
    (hrouted : Stream.routed [x] ++ t'.waiting = t.waiting) : Thorough t' (log ++ [x]) where
  routed := by
    have hblocks : blocks [x] = [] := by simp [blocks, hx]
    rw [routed_append, blocks_append, hblocks, List.append_nil, List.append_assoc, hrouted]
    exact h.routed
  settled := h.settled.snoc fun b hb => by
    rw [hb] at hx
    cases hx

/-- The task turns to a block when nothing waits. -/
theorem begin (h : Thorough t log) {b : Block} (hwaiting : t.waiting = [])
    (hnext : t'.waiting = classified b) : Thorough t' (log ++ [.began b]) where
  routed := by
    have hrouted := h.routed
    rw [hwaiting, List.append_nil] at hrouted
    rw [routed_append, blocks_append, hnext, List.flatMap_append, ← hrouted]
    simp [Stream.routed, blocks, Note.block?, Note.event?]
  settled := h.settled.snoc fun _ _ => by
    have hrouted := h.routed
    rw [hwaiting, List.append_nil] at hrouted
    exact hrouted

theorem step {d : Driver} {c : Collaborators χ σ ρ π} {cancelled : Bool} {now : Nat}
    {s s' : Shared χ σ π} (h : Thorough t log) (hchange : Task.Change d c cancelled now t s t' s') :
    Thorough t' (log ++ t.note cancelled) := by
  cases hchange with
  | dismissed hc hp =>
    subst hc
    rcases hp with hp | ⟨feed, hp⟩ | ⟨wake, attempt, hp⟩ <;>
      exact h.keep (by simp [Task.note, hp]) (by simp [Task.waiting, hp])
  | opened hc hp hs =>
    rw [show t.note cancelled = [.opened t.tracked] by simp [Task.note, hp, hc]]
    exact h.snoc rfl (by simp [Task.waiting, hp, Stream.routed, Note.event?])
  | refused hc hp hs =>
    rw [show t.note cancelled = [.opened t.tracked] by simp [Task.note, hp, hc]]
    exact h.snoc rfl (by simp [Task.waiting, Task.failure, hp, Stream.routed, Note.event?])
  | @advanced b feed hp ht =>
    rw [show t.note cancelled = [.began b] by simp [Task.note, hp]]
    exact h.begin (by simp [Task.waiting, hp]) rfl
  | @surpassed b feed hp ht =>
    rw [show t.note cancelled = [.began b] by simp [Task.note, hp]]
    exact h.begin (by simp [Task.waiting, hp]) rfl
  | @handled agenda feed agenda' s' hp ha =>
    obtain ⟨current, waiting⟩ := agenda
    rcases waiting_of_step ha with ⟨hcurrent, hwaiting⟩ | ⟨e, rfl, rfl⟩
    · cases current with
      | none => exact absurd rfl hcurrent
      | some d => exact h.keep (by simp [Task.note, hp]) (by simp [Task.waiting, hp, hwaiting])
    · rw [show t.note cancelled = [.routed e] by simp [Task.note, hp]]
      exact h.snoc rfl (by simp [Task.waiting, hp, Stream.routed, Note.event?])
  | settled hp ha =>
    rw [Agenda.of_step_over ha] at hp
    exact h.keep (by simp [Task.note, hp]) (by simp [Task.waiting, hp])
  | known hp | found hp | unknown hp | took _ hp | completed _ hp | quit hp | gaveUp hp | restarting hp
  | restarted _ hp => exact h.keep (by simp [Task.note, hp]) (by simp [Task.waiting, hp])
  | broke hc hp hn => exact h.keep (by simp [Task.note, hp]) (by simp [Task.waiting, Task.failure, hp])

end Thorough

end Attestor.Stream
