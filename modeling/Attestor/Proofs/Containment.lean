import Attestor.Proofs.Journal
import Attestor.Proofs.Routings

/-!
Panics of handlers. A handler can panic in its activity, and before that, when it is called. The router is there to
contain both, and contains the first only (`panics_contained`).

After a panic in an activity routing settles the event as failed and reports the panic, once and after whatever the
handler itself has told, and the stream task, whose next turn does the same, goes on. Each event ahead, of the block and
of those that the feed still gives, has its turn, unless the task stops at one before it. A panic in a call comes before
there is an activity. It leaves the router, which reports nothing, and ends the task.

An activity is finite but for hanging, whatever it is answered, so it is taken to its end by induction on it; then come
the events of a block, and then the blocks.
-/

namespace Attestor

open Chain (Block)
open Contract (Event EventKind)
open Handler (Activity Effect Ending)

variable {χ σ ρ π : Type}

/-! ### Routing one event -/

namespace Routing

/-- The handler of the event panics when it is called. -/
def Router.CallPanics (r : Router) (e : Event) (p : Panic) : Prop :=
  ∃ kind handler, r.direct e = .handle kind handler ∧ r.call e handler = .error p

/-- The handler of the event panics: when it is called, or in its activity. -/
def Router.Panics (r : Router) (c : Collaborators χ σ ρ π) (e : Event) (s : Shared χ σ π) (kind : EventKind)
    (p : Panic) : Prop :=
  ∃ handler, r.direct e = .handle kind handler ∧
    (r.call e handler = .error p ∨ ∃ a, r.call e handler = .ok a ∧ (a.run c s).1 = some (.panicked p))

/-- What is said of a panic. -/
def panicked (e : Event) (kind : EventKind) (p : Panic) : Diagnostic :=
  .handlerFailed e kind s!"handler panicked: {p.message}"

/-- The event is settled as failed, and one report of the panic comes after what its activity has told. -/
structure Caught (r : Router) (c : Collaborators χ σ ρ π) (e : Event) (s : Shared χ σ π) (kind : EventKind)
    (a : Activity) (p : Panic) : Prop where
  settled : r.route c e s = (.settled (.handlerFailed kind), (a.run c s).2.publish (panicked e kind p))
  told : (r.route c e s).2.diagnostics.log =
    s.diagnostics.log ++ (a.effects c s).flatMap Effect.told ++ [panicked e kind p]

theorem Router.route_caught {r : Router} {e : Event} {kind : EventKind} {handler : Handler} {a : Activity} {p : Panic}
    (hdirect : r.direct e = .handle kind handler) (hcall : r.call e handler = .ok a) {c : Collaborators χ σ ρ π}
    {s : Shared χ σ π} (hpanic : (a.run c s).1 = some (.panicked p)) : Caught r c e s kind a p := by
  obtain ⟨heffects, hroute⟩ := route_handled hdirect hcall c (Prod.ext hpanic rfl : a.run c s = (_, (a.run c s).2))
  refine ⟨hroute, ?_⟩
  have htold := (r.route_performed c e s).diagnostics
  rw [heffects, List.flatMap_append, told_publish, ← List.append_assoc] at htold
  exact htold

/-- A panic in the call comes out of the router, which has done nothing. -/
theorem Router.route_of_callPanics {r : Router} {e : Event} {p : Panic} (h : r.CallPanics e p)
    (c : Collaborators χ σ ρ π) (s : Shared χ σ π) : r.route c e s = (.crashed p, s) := by
  obtain ⟨kind, handler, hdirect, hcall⟩ := h
  simp only [route, hdirect, hcall]

/-- The event of a handler that panics is settled exactly if the panic was not in the call. -/
theorem Router.Panics.settled_iff {r : Router} {c : Collaborators χ σ ρ π} {e : Event} {s : Shared χ σ π}
    {kind : EventKind} {p : Panic} (h : r.Panics c e s kind p) :
    (r.route c e s).1 = .settled (.handlerFailed kind) ↔ ∀ q, ¬ r.CallPanics e q := by
  obtain ⟨handler, hdirect, hcall | ⟨a, hcall, hpanic⟩⟩ := h
  · refine iff_of_false (fun hsettled => ?_) fun hnone => hnone p ⟨kind, handler, hdirect, hcall⟩
    rw [route_of_callPanics ⟨kind, handler, hdirect, hcall⟩] at hsettled
    cases hsettled
  · refine iff_of_true (by rw [(route_caught hdirect hcall hpanic).settled]) ?_
    rintro q ⟨kind', handler', hdirect', hcall'⟩
    rw [hdirect] at hdirect'
    cases hdirect'
    rw [hcall] at hcall'
    cases hcall'

end Routing

namespace Stream

open Routing (Agenda Router)

/-! ### How far a task gets -/

/-- The feed gives these blocks, one after the other, and then stands at `rest`. -/
inductive Gives (source : Source σ ρ) : ρ → List Block → ρ → Prop where
  | nil {feed} : Gives source feed [] feed
  | cons {feed b feed' bs rest} (h : source.next feed = .block b feed') (hrest : Gives source feed' bs rest) :
      Gives source feed (b :: bs) rest

/-- The handler of the event never returns. -/
def Task.HangsOn (t : Task ρ) (e : Event) : Prop :=
  ∃ kind waiting feed, t.phase = .handling ⟨some ⟨e, kind, .hang⟩, waiting⟩ feed

theorem Task.HangsOn.stuck {t : Task ρ} {e : Event} (h : t.HangsOn e) (d : Driver) (c : Collaborators χ σ ρ π) :
    t.Stuck d c .hung := by
  obtain ⟨kind, waiting, feed, hp⟩ := h
  intro cancelled now s
  simp only [Task.step, hp, Agenda.step, Agenda.handle, Activity.ending?]

theorem Task.Faces.stuck {t : Task ρ} {e : Event} (h : t.Faces e) {d : Driver} {p : Panic}
    (hpanic : d.router.CallPanics e p) (c : Collaborators χ σ ρ π) : t.Stuck d c (.crashed p) := by
  obtain ⟨kind, handler, hdirect, hcall⟩ := hpanic
  intro cancelled now s
  obtain ⟨waiting, feed, -, hstep⟩ := h.step d c cancelled now s
  rw [hstep]
  simp only [Agenda.turn, hdirect, hcall, Progress.map]

/-- From one moment on the task comes to where it is as said, and meanwhile it routes these events. -/
def Gets (live : Nat → Played Unit χ σ ρ π) (i : Nat) (P : Task ρ → Prop) (es : List Event) : Prop :=
  ∃ j, i ≤ j ∧ P (live j).task ∧ routed (live j).journal = routed (live i).journal ++ es

/-- The task comes to an event, having routed others, and no further. -/
inductive Stops (r : Router) (live : Nat → Played Unit χ σ ρ π) (i : Nat) (before : List Event) (e : Event) : Prop where
  /-- The handler never returns. -/
  | hangs (h : Gets live i (·.HangsOn e) (before ++ [e]))
  /-- The handler panics when it is called, and the task with it. -/
  | panics {p} (hpanic : r.CallPanics e p) (h : Gets live i (·.Faces e) before)

/-- The task gets there, or it stops at one of the events. -/
inductive Goes (r : Router) (live : Nat → Played Unit χ σ ρ π) (i : Nat) (P : Task ρ → Prop) (es : List Event) :
    Prop where
  | gets (h : Gets live i P es)
  | stops {before e after} (hes : es = before ++ e :: after) (h : Stops r live i before e)

section

variable {live : Nat → Played Unit χ σ ρ π} {r : Router} {i : Nat} {P Q : Task ρ → Prop} {es es' : List Event}

theorem Gets.here (h : P (live i).task) : Gets live i P [] :=
  ⟨i, Nat.le_refl i, h, (List.append_nil _).symm⟩

theorem Gets.mono (h : Gets live i P es) (hpq : ∀ t, P t → Q t) : Gets live i Q es := by
  obtain ⟨j, hij, hj, hrouted⟩ := h
  exact ⟨j, hij, hpq _ hj, hrouted⟩

theorem Gets.later {j : Nat} (h : Gets live j P es') (hij : i ≤ j)
    (hrouted : routed (live j).journal = routed (live i).journal ++ es) : Gets live i P (es ++ es') := by
  obtain ⟨k, hjk, hk, hrouted'⟩ := h
  exact ⟨k, Nat.le_trans hij hjk, hk, by rw [hrouted', hrouted, List.append_assoc]⟩

theorem Gets.trans (h : Gets live i P es) (hnext : ∀ j, P (live j).task → Gets live j Q es') :
    Gets live i Q (es ++ es') := by
  obtain ⟨j, hij, hj, hrouted⟩ := h
  exact (hnext j hj).later hij hrouted

theorem Stops.later {j : Nat} {e : Event} (h : Stops r live j es' e) (hij : i ≤ j)
    (hrouted : routed (live j).journal = routed (live i).journal ++ es) : Stops r live i (es ++ es') e := by
  cases h with
  | hangs h =>
    refine .hangs ?_
    rw [List.append_assoc]
    exact h.later hij hrouted
  | panics hpanic h => exact .panics hpanic (h.later hij hrouted)

theorem Goes.later {j : Nat} (h : Goes r live j P es') (hij : i ≤ j)
    (hrouted : routed (live j).journal = routed (live i).journal ++ es) : Goes r live i P (es ++ es') := by
  cases h with
  | gets h => exact .gets (h.later hij hrouted)
  | @stops before e after hes h =>
    have hsplit : es ++ es' = (es ++ before) ++ e :: after := by rw [hes, List.append_assoc]
    exact .stops hsplit (h.later hij hrouted)

theorem Goes.mono (h : Goes r live i P es) (hpq : ∀ t, P t → Q t) : Goes r live i Q es := by
  cases h with
  | gets h => exact .gets (h.mono hpq)
  | stops hes h => exact .stops hes h

/-- Goes on from where the task gets, if it does. -/
theorem Goes.trans (h : Goes r live i P es) (hnext : ∀ j, P (live j).task → Goes r live j Q es') :
    Goes r live i Q (es ++ es') := by
  cases h with
  | gets h =>
    obtain ⟨j, hij, hj, hrouted⟩ := h
    exact (hnext j hj).later hij hrouted
  | @stops before e after hes h =>
    have hsplit : es ++ es' = before ++ e :: (after ++ es') := by rw [hes, List.append_assoc, List.cons_append]
    exact .stops hsplit h

end

section

variable {live : Nat → Played Unit χ σ ρ π} {d : Driver} {c : Collaborators χ σ ρ π} {turns : Nat → Turn χ σ π}
  (hlive : ∀ n, live (n + 1) = (live n).turn d c (turns n))

include hlive

/-- One turn. -/
theorem gets_of_moved {i : Nat} {t : Task ρ} {s : Shared χ σ π} {P : Task ρ → Prop} {es : List Event}
    (h : (live i).task.step d c (turns i).cancelled (turns i).now ((turns i).others (live i).shared) = .moved (t, s))
    (ht : P t) (hes : routed ((live i).task.note (turns i).cancelled) = es) : Gets live i P es := by
  have hturn : live (i + 1) = ⟨t, s, (live i).journal ++ (live i).task.note (turns i).cancelled, ()⟩ := by
    rw [hlive, Played.turn_of_moved h]
  refine ⟨i + 1, Nat.le_succ i, ?_, ?_⟩
  · rw [hturn]
    exact ht
  · rw [hturn, routed_append, hes]

/-- One turn of a task that is busy with events. -/
theorem gets_of_agenda {i : Nat} {agenda agenda' : Agenda} {feed : ρ} {s : Shared χ σ π} {es : List Event}
    (hp : (live i).task.phase = .handling agenda feed)
    (h : agenda.step d.router c ((turns i).others (live i).shared) = .moved (agenda', s))
    (hes : routed ((live i).task.note (turns i).cancelled) = es) :
    Gets live i (fun t => t.phase = .handling agenda' feed) es := by
  refine gets_of_moved hlive (t := { (live i).task with phase := .handling agenda' feed }) (s := s) ?_ rfl hes
  simp only [Task.step, hp, h, Task.enter]

/-! ### One event -/

section

variable {e : Event} {kind : EventKind} {waiting : List Event} {feed : ρ}

/-- The activity of the event in hand is over: a panic is like any other end. -/
theorem ended_settles {a : Activity} {i : Nat}
    (hp : (live i).task.phase = .handling ⟨some ⟨e, kind, a⟩, waiting⟩ feed) {ending : Ending}
    (hending : a.ending? = some ending) : Gets live i (fun t => t.phase = .handling ⟨none, waiting⟩ feed) [] := by
  refine gets_of_agenda hlive hp (s := Routing.report e kind ending ((turns i).others (live i).shared)) ?_
    (by simp [Task.note, hp, routed])
  simp only [Agenda.step, Agenda.handle, hending]

/-- The activity of the event in hand goes on. -/
theorem activity_moves {a : Activity} {i : Nat}
    (hp : (live i).task.phase = .handling ⟨some ⟨e, kind, a⟩, waiting⟩ feed) (hover : a.ending? = none)
    (hhang : a ≠ .hang) :
    Gets live i
      (fun t => t.phase =
        .handling ⟨some ⟨e, kind, (a.step c ((turns i).others (live i).shared)).1⟩, waiting⟩ feed) [] := by
  refine gets_of_agenda hlive hp (s := (a.step c ((turns i).others (live i).shared)).2) ?_
    (by simp [Task.note, hp, routed])
  simp only [Agenda.step, Agenda.handle, hover]

/-- After a question the activity goes on with the answer. A panic instead of an answer is an end. -/
theorem answer_ends {α : Type} {rest : α → Activity} {answer : Answer α}
    (hrest : ∀ x j, (live j).task.phase = .handling ⟨some ⟨e, kind, rest x⟩, waiting⟩ feed →
      Gets live j (fun t => t.phase = .handling ⟨none, waiting⟩ feed ∨ t.HangsOn e) [])
    {i : Nat} (hp : (live i).task.phase = .handling ⟨some ⟨e, kind, Activity.resume rest answer⟩, waiting⟩ feed) :
    Gets live i (fun t => t.phase = .handling ⟨none, waiting⟩ feed ∨ t.HangsOn e) [] := by
  cases answer with
  | value x => exact hrest x i hp
  | panic p => exact (ended_settles hlive hp rfl).mono fun _ => .inl

/-- An activity comes to an end or hangs, whatever it is answered and whatever others do meanwhile. -/
theorem activity_ends {a : Activity} {i : Nat}
    (hp : (live i).task.phase = .handling ⟨some ⟨e, kind, a⟩, waiting⟩ feed) :
    Gets live i (fun t => t.phase = .handling ⟨none, waiting⟩ feed ∨ t.HangsOn e) [] := by
  induction a generalizing i with
  | done => exact (ended_settles hlive hp rfl).mono fun _ => .inl
  | fail error => exact (ended_settles hlive hp rfl).mono fun _ => .inl
  | panic p => exact (ended_settles hlive hp rfl).mono fun _ => .inl
  | hang => exact .here (.inr ⟨kind, waiting, feed, hp⟩)
  | publish d rest ih => exact (activity_moves hlive hp rfl nofun).trans fun j => ih
  | enqueue v rest ih => exact (activity_moves hlive hp rfl nofun).trans fun j => ih
  | scopeRecord contract scope rest ih =>
    exact (activity_moves hlive hp rfl nofun).trans fun j => answer_ends hlive fun x k => ih x
  | retrieve scope rest ih =>
    exact (activity_moves hlive hp rfl nofun).trans fun j => answer_ends hlive fun x k => ih x
  | verify scope asset rest ih =>
    exact (activity_moves hlive hp rfl nofun).trans fun j => answer_ends hlive fun x k => ih x

/-- An event is routed, unless its handler panics when it is called, and its handler comes to an end or hangs. -/
theorem event_ends {i : Nat} (hp : (live i).task.phase = .handling ⟨none, e :: waiting⟩ feed) :
    Goes d.router live i (fun t => t.phase = .handling ⟨none, waiting⟩ feed) [e] := by
  have hnote : routed ((live i).task.note (turns i).cancelled) = [e] := by simp [Task.note, hp, routed, Note.event?]
  cases hdirect : d.router.direct e with
  | ignore outcome reason =>
    have hignored : Gets live i (fun t => t.phase = .handling ⟨none, waiting⟩ feed) [e] := by
      refine gets_of_agenda hlive hp (s := ((turns i).others (live i).shared).publish (.ignored e reason)) ?_ hnote
      simp only [Agenda.step, Agenda.turn, hdirect]
    exact .gets hignored
  | handle kind handler =>
    cases hcall : d.router.call e handler with
    | error p => exact .stops rfl (.panics ⟨kind, handler, hdirect, hcall⟩ (.here ⟨waiting, feed, hp⟩))
    | ok a =>
      have hcalled : Gets live i (fun t => t.phase = .handling ⟨some ⟨e, kind, a⟩, waiting⟩ feed) [e] := by
        refine gets_of_agenda hlive hp (s := (turns i).others (live i).shared) ?_ hnote
        simp only [Agenda.step, Agenda.turn, hdirect, hcall]
      obtain ⟨j, hij, hsettled | hhang, hrouted⟩ := hcalled.trans fun j => activity_ends hlive
      · exact .gets ⟨j, hij, hsettled, hrouted⟩
      · have hstops : Stops d.router live i [] e := .hangs ⟨j, hij, hhang, hrouted⟩
        exact .stops rfl hstops

end

/-! ### The events ahead -/

/-- Events are routed, one after the other, up to one that the task stops at. -/
theorem events_end {es waiting : List Event} {feed : ρ} {i : Nat}
    (hp : (live i).task.phase = .handling ⟨none, es ++ waiting⟩ feed) :
    Goes d.router live i (fun t => t.phase = .handling ⟨none, waiting⟩ feed) es := by
  induction es generalizing i with
  | nil => exact .gets (.here hp)
  | cons e es ih => exact (event_ends hlive hp).trans fun j => ih

/-- When no event is left of a block, the task reads on. -/
theorem block_over {feed : ρ} {i : Nat} (hp : (live i).task.phase = .handling ⟨none, []⟩ feed) :
    Gets live i (fun t => t.phase = .reading feed) [] := by
  refine gets_of_moved hlive (t := { (live i).task with phase := .reading feed })
    (s := (turns i).others (live i).shared) ?_ rfl (by simp [Task.note, hp, routed])
  simp only [Task.step, hp, Agenda.step, Task.enter]

variable (hcancelled : ∀ n, (turns n).cancelled = false)

include hcancelled

/-- A block that the feed gives is taken, and its events are next. -/
theorem block_begins {feed rest : ρ} {b : Block} (hnext : c.source.next feed = .block b rest) {i : Nat}
    (hp : (live i).task.phase = .reading feed) :
    Gets live i (fun t => t.phase = .handling ⟨none, classified b⟩ rest) [] := by
  have htaken : Gets live i (fun t => t.phase = .received b rest) [] := by
    refine gets_of_moved hlive (t := { (live i).task with phase := .received b rest })
      (s := ((turns i).others (live i).shared).publish (.blockReceived b.height b.events.length)) ?_ rfl
      (by simp [Task.note, hp, routed])
    simp only [Task.step, hp, hcancelled, Bool.false_eq_true, if_false, Task.read, hnext, Task.enter]
  refine htaken.trans fun j hj => ?_
  have hnote : routed ((live j).task.note (turns j).cancelled) = [] := by simp [Task.note, hj, routed, Note.event?]
  -- whether the height advances makes no difference to the events
  by_cases ht : (live j).task.tracked.all (· ≤ b.height) = true
  · refine gets_of_moved hlive
      (t := { (live j).task with tracked := some b.height, phase := .handling ⟨none, classified b⟩ rest })
      (s := ((turns j).others (live j).shared).publish (.heightAdvanced b.height)) ?_ rfl hnote
    simp only [Task.step, hj, Task.accept, if_pos ht]
    rfl
  · refine gets_of_moved hlive (t := { (live j).task with phase := .handling ⟨none, classified b⟩ rest })
      (s := (turns j).others (live j).shared) ?_ rfl hnote
    simp only [Task.step, hj, Task.accept, if_neg ht]
    rfl

/-- After the last event of a block come those of the next block. -/
theorem events_pass {feed rest : ρ} {b : Block} (hnext : c.source.next feed = .block b rest) {waiting : List Event}
    {i : Nat} (hp : (live i).task.phase = .handling ⟨none, waiting⟩ feed) :
    Goes d.router live i (fun t => t.phase = .handling ⟨none, classified b⟩ rest) waiting := by
  rw [← List.append_nil waiting] at hp ⊢
  refine (events_end hlive hp).trans fun j hj => .gets ?_
  exact (block_over hlive hj).trans fun k => block_begins hlive hcancelled hnext

/-- The events ahead are all routed, and the task reads on behind their blocks. -/
theorem blocks_end {feed rest : ρ} {bs : List Block} (hgives : Gives c.source feed bs rest) {waiting : List Event}
    {i : Nat} (hp : (live i).task.phase = .handling ⟨none, waiting⟩ feed) :
    Goes d.router live i (fun t => t.phase = .reading rest) (waiting ++ bs.flatMap classified) := by
  induction hgives generalizing waiting i with
  | @nil feed =>
    rw [← List.append_nil waiting] at hp
    exact (events_end hlive hp).trans fun j hj => .gets (block_over hlive hj)
  | @cons feed b feed' bs rest hnext hrest ih =>
    rw [List.flatMap_cons]
    exact (events_pass hlive hcancelled hnext hp).trans fun j => ih

omit hlive hcancelled in
/-- An event ahead is one that waits, or it comes after all of these. -/
theorem ahead_cases {es waiting rest post : List Event} {e : Event} (h : waiting ++ rest = es ++ e :: post) :
    (∃ later, waiting = es ++ e :: later) ∨ ∃ between, es = waiting ++ between ∧ rest = between ++ e :: post := by
  rcases List.append_eq_append_iff.mp h with ⟨between, hes, hrest⟩ | ⟨later, hwaiting, hlater⟩
  · exact .inr ⟨between, hes, hrest⟩
  · cases later with
    | nil => exact .inr ⟨[], by rw [hwaiting, List.append_nil, List.append_nil], hlater.symm⟩
    | cons x later =>
      obtain ⟨rfl, -⟩ := List.cons.inj hlater
      exact .inl ⟨later, hwaiting⟩

/-- An event ahead has its turn, when those before it have been routed. -/
theorem event_comes {feed rest : ρ} {bs : List Block} (hgives : Gives c.source feed bs rest)
    {waiting es post : List Event} {e : Event} (hahead : waiting ++ bs.flatMap classified = es ++ e :: post) {i : Nat}
    (hp : (live i).task.phase = .handling ⟨none, waiting⟩ feed) : Goes d.router live i (·.Faces e) es := by
  induction hgives generalizing waiting es i with
  | @nil feed =>
    rw [List.flatMap_nil, List.append_nil] at hahead
    rw [hahead] at hp
    exact (events_end hlive hp).mono fun t ht => ⟨post, feed, ht⟩
  | @cons feed b feed' bs rest hnext hrest ih =>
    rw [List.flatMap_cons] at hahead
    rcases ahead_cases hahead with ⟨later, rfl⟩ | ⟨between, rfl, hbetween⟩
    · exact (events_end hlive hp).mono fun t ht => ⟨later, feed, ht⟩
    · exact (events_pass hlive hcancelled hnext hp).trans fun j => ih hbetween

end

/-! ### Panics -/

/-- What comes of a panic in the activity of the event in hand, when others come between the steps of the task. -/
structure Overcome (d : Driver) (c : Collaborators χ σ ρ π) (p : Played Unit χ σ ρ π) (turns : Nat → Turn χ σ π)
    (e : Event) (kind : EventKind) (panic : Panic) (waiting : List Event) (feed : ρ) : Prop where
  /-- With the next turn the event is settled and the panic reported, once, and nothing else is done. -/
  reported : p.turn d c (turns 0) =
    ⟨{ p.task with phase := .handling ⟨none, waiting⟩ feed },
      ((turns 0).others p.shared).publish (Routing.panicked e kind panic), p.journal, ()⟩
  /-- Each event ahead has its turn, when those before it have been routed. -/
  comes : ∀ {bs rest es e' post}, Gives c.source feed bs rest → waiting ++ bs.flatMap classified = es ++ e' :: post →
    Goes d.router (p.after d c turns) 0 (·.Faces e') es
  /-- When all events ahead have been routed, the task reads on behind their blocks. -/
  passes : ∀ {bs rest}, Gives c.source feed bs rest →
    Goes d.router (p.after d c turns) 0 (·.phase = .reading rest) (waiting ++ bs.flatMap classified)

/-- The task is at its end: it is stuck so, and stays where it is. -/
structure Final (d : Driver) (c : Collaborators χ σ ρ π) (p : Played Unit χ σ ρ π) (how : Routing.Routed) : Prop where
  stuck : p.task.Stuck d c how
  /-- Nothing more is routed, whatever others do. -/
  stays : ∀ turns, (p.run d c turns).task = p.task ∧ (p.run d c turns).journal = p.journal

theorem Final.of_stuck {d : Driver} {c : Collaborators χ σ ρ π} {p : Played Unit χ σ ρ π} {how : Routing.Routed}
    (h : p.task.Stuck d c how) : Final d c p how :=
  ⟨h, Played.stays_of_stuck h⟩

/-- Which panics of handlers stay where they are. -/
structure Contains (d : Driver) (c : Collaborators χ σ ρ π) : Prop where
  /-- A panic in the activity of a handler is a failure of its event. -/
  caught : ∀ {e kind handler a p s}, d.router.direct e = .handle kind handler → d.router.call e handler = .ok a →
    (a.run c s).1 = some (.panicked p) → Routing.Caught d.router c e s kind a p
  /-- The task goes on after it. -/
  overcome : ∀ {p : Played Unit χ σ ρ π} {turns e kind panic waiting feed}, (∀ n, (turns n).cancelled = false) →
    p.task.phase = .handling ⟨some ⟨e, kind, .panic panic⟩, waiting⟩ feed →
    Overcome d c p turns e kind panic waiting feed
  /-- A panic when a handler is called comes out of the router, which has told nothing and settled nothing. -/
  escapes : ∀ {e p}, d.router.CallPanics e p → ∀ s, d.router.route c e s = (.crashed p, s)
  /-- The task ends in it, and neither this event nor any event behind it is routed. -/
  lost : ∀ {p : Played Unit χ σ ρ π} {e panic}, p.task.Faces e → d.router.CallPanics e panic →
    Final d c p (.crashed panic)
  /-- A handler that never returns leaves the task alive, but to no avail. -/
  hung : ∀ {p : Played Unit χ σ ρ π} {e}, p.task.HangsOn e → Final d c p .hung
  /-- So, when a handler panics, its event is settled exactly if the handler did not panic when it was called. -/
  settled_iff : ∀ {e kind p s}, d.router.Panics c e s kind p →
    ((d.router.route c e s).1 = .settled (.handlerFailed kind) ↔ ∀ q, ¬ d.router.CallPanics e q)

/-- **A handler that panics fails its event and nothing else, exactly if it does not panic when it is called**, whatever
the handlers are, whatever the collaborators answer, and whatever others do between the steps of the stream task. After
a panic in an activity routing settles the event and reports the panic once, and while the run is not cancelled each
event ahead has its turn, unless the task stops at one before it, where a handler hangs or panics when it is called. A
panic in a call comes out of the router and is the end of the task. -/
theorem panics_contained (d : Driver) (c : Collaborators χ σ ρ π) : Contains d c where
  caught hdirect hcall hpanic := Router.route_caught hdirect hcall hpanic
  overcome {p turns e kind panic waiting feed} hcancelled hp := by
    have hstep : p.task.step d c (turns 0).cancelled (turns 0).now ((turns 0).others p.shared) =
        .moved ({ p.task with phase := .handling ⟨none, waiting⟩ feed },
          ((turns 0).others p.shared).publish (Routing.panicked e kind panic)) := by
      simp only [Task.step, hp, Agenda.step, Agenda.handle, Activity.ending?, Task.enter]
      rfl
    have hlive := Played.after_succ (d := d) (c := c) (p := p) turns
    have hsettled : Goes d.router (p.after d c turns) 0 (fun t => t.phase = .handling ⟨none, waiting⟩ feed) [] := by
      refine .gets (gets_of_moved hlive hstep rfl ?_)
      show routed (p.task.note (turns 0).cancelled) = []
      simp [Task.note, hp, routed]
    refine ⟨?_, fun hgives hahead => ?_, fun hgives => ?_⟩
    · rw [Played.turn_of_moved hstep]
      simp only [Task.note, hp, List.append_nil]
    · exact hsettled.trans fun j => event_comes hlive hcancelled hgives hahead
    · exact hsettled.trans fun j => blocks_end hlive hcancelled hgives
  escapes hpanic s := Router.route_of_callPanics hpanic c s
  lost hfaces hpanic := .of_stuck (hfaces.stuck hpanic c)
  hung hhangs := .of_stuck (hhangs.stuck d c)
  settled_iff hpanics := hpanics.settled_iff

/-! ### Handlers that panic -/

namespace Sample

open Contract (Key)
open Handler (Registry)

/-- An event of a block, of this kind. -/
def raw (kind : EventKind) : Chain.Event :=
  ⟨7, "hash", "wasm", [⟨Key.contractAddress.text, "contract"⟩, ⟨Key.eventType.text, kind.name⟩]⟩

def event (kind : EventKind) : Event :=
  ⟨7, "hash", .plain, .ofList [(Key.contractAddress.text, "contract"), (Key.eventType.text, kind.name)]⟩

def block (kinds : List EventKind) : Block := ⟨7, kinds.map raw⟩

theorem classified_block (kinds : List EventKind) : classified (block kinds) = kinds.map event := by
  have hclassify : ∀ kind, Event.classify (raw kind) = some (event kind) := fun kind => by cases kind <;> rfl
  rw [classified, block, List.filterMap_map, show Event.classify ∘ raw = some ∘ event from funext hclassify]
  exact congrFun List.filterMap_eq_map kinds

def panic : Panic := .text "bad asset"

/-- A handler that panics in its activity. -/
def faltering : Handler := Handler.ofActivity fun _ => .panic panic

/-- A handler that panics when it is called. -/
def bursting : Handler := fun _ => .error panic

/-- Onboardings go to this handler, and of migrations nothing comes. -/
def panicky (onboarding : Handler) : Driver :=
  ⟨⟨"contract", .fixed "verifier" [] (.ok []),
    (Registry.empty.register .onboardAsset onboarding).register .migrateContract (Handler.ofActivity fun _ => .done)⟩,
    .disabled⟩

theorem panicky_direct (onboarding : Handler) :
    (panicky onboarding).router.direct (event .onboardAsset) = .handle .onboardAsset onboarding := rfl

/-- The collaborators play scripts, and are asked nothing here. -/
def staged : Collaborators Chain.Ledger Script Feed Asset.Fixed :=
  ⟨Chain.Ledger.client, Script.source, Asset.Fixed.verifier⟩

/-- An onboarding and a migration in one block, and a migration in the next one. -/
def eventful : Shared Chain.Ledger Script Asset.Fixed :=
  .initial .empty (Script.empty.push
    (.ok ⟨[.ok (block [.onboardAsset, .migrateContract]), .ok (block [.migrateContract])], .hangs⟩)) .approving

/-- Nothing comes between the steps of the task. -/
def calm (_ : Nat) : Turn Chain.Ledger Script Asset.Fixed := ⟨false, 0, id⟩

/-- A run from its beginning. -/
def running (onboarding : Handler) (n : Nat) : Played Unit Chain.Ledger Script Feed Asset.Fixed :=
  (Played.begin (some 7) eventful).after (panicky onboarding) staged calm n

theorem running_faces (onboarding : Handler) : (running onboarding 4).task.Faces (event .onboardAsset) :=
  ⟨[event .migrateContract], ⟨[.ok (block [.migrateContract])], .hangs⟩, rfl⟩

theorem bursting_panics : (panicky bursting).router.CallPanics (event .onboardAsset) panic :=
  ⟨.onboardAsset, bursting, rfl, rfl⟩

/-- After the panic in the activity all events of the two blocks are routed. The panic in the call is the end. -/
theorem panicking_contained :
    Routing.Caught (panicky faltering).router staged (event .onboardAsset) eventful .onboardAsset (.panic panic) panic ∧
      Overcome (panicky faltering) staged (running faltering 5) calm (event .onboardAsset) .onboardAsset panic
        [event .migrateContract] ⟨[.ok (block [.migrateContract])], .hangs⟩ ∧
      Goes (panicky faltering).router ((running faltering 5).after (panicky faltering) staged calm) 0
        (·.phase = .reading ⟨[], .hangs⟩) [event .migrateContract, event .migrateContract] ∧
      routed (running faltering 14).journal =
        [event .onboardAsset, event .migrateContract, event .migrateContract] ∧
      Final (panicky bursting) staged (running bursting 4) (.crashed panic) := by
  have hcontains := panics_contained (panicky faltering) staged
  have hsample : Overcome (panicky faltering) staged (running faltering 5) calm (event .onboardAsset) .onboardAsset
      panic [event .migrateContract] ⟨[.ok (block [.migrateContract])], .hangs⟩ :=
    hcontains.overcome (fun _ => rfl) rfl
  have hgives : Gives staged.source ⟨[.ok (block [.migrateContract])], .hangs⟩ [block [.migrateContract]]
      ⟨[], .hangs⟩ := .cons rfl .nil
  have hpasses := hsample.passes hgives
  rw [List.flatMap_singleton, classified_block] at hpasses
  exact ⟨hcontains.caught (panicky_direct faltering) rfl rfl, hsample, hpasses, rfl,
    (panics_contained (panicky bursting) staged).lost (running_faces bursting) bursting_panics⟩

/-- A panic in the call of a handler is not contained, though the router is there to contain it: it comes out of the
router, nothing is told of it, and the events behind are never routed. -/
theorem call_panic_escapes :
    (panicky bursting).router.Panics staged (event .onboardAsset) eventful .onboardAsset panic ∧
      (panicky bursting).router.route staged (event .onboardAsset) eventful = (.crashed panic, eventful) ∧
      ¬ ∃ n, event .migrateContract ∈ routed (running bursting n).journal := by
  refine ⟨⟨bursting, rfl, .inl rfl⟩, Router.route_of_callPanics bursting_panics staged eventful, ?_⟩
  rintro ⟨n, hn⟩
  have hnothing : routed (running bursting n).journal = [] := by
    clear hn
    match n with
    | 0 | 1 | 2 | 3 => rfl
    | n + 4 =>
      have hstuck := (running_faces bursting).stuck (d := panicky bursting) bursting_panics staged
      rw [Nat.add_comm, running, Played.after_add]
      exact congrArg routed (Played.stays_of_stuck hstuck _).2
  rw [hnothing] at hn
  cases hn

end Sample

end Stream

end Attestor
