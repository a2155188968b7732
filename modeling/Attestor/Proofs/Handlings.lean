import Attestor.Proofs.Causes
import Attestor.Proofs.Journal

/-!
Accounts of what a stream task's events lead to. Beside its journal a task gets an account: for each event that it
has routed, the effects that the handler has had so far, with the answers that the collaborators gave, and apart
from that, read off the queue itself, what the steps of the task have added to it. Whatever the handlers are, the
account is faithful: what the task has queued is what the handlers of its events have queued, and each handler came
to its effects by the answers that stand in the account (`Faithful.step`).
-/

namespace Attestor.Stream

open Contract (Event EventKind Verification)
open Handler (Activity Effect)
open Handler.Activity (Course)
open Routing (Agenda Router)

variable {χ σ ρ π : Type}

namespace Task

/-- The events on their way, while the task is busy with a block. -/
def agenda? (t : Task ρ) : Option Agenda :=
  match t.phase with
  | .handling agenda _ => some agenda
  | _ => none

/-- The event that is being handled. -/
def current? (t : Task ρ) : Option Routing.Dispatch := t.agenda?.bind (·.current)

end Task

/-! ### Accounts -/

/-- An event that was routed, and the effects that its handler has had. -/
structure Handling where
  event : Event
  effects : List Effect

namespace Handling

/-- The handler has one more effect. -/
def add (h : Handling) (x : Effect) : Handling := { h with effects := h.effects ++ [x] }

/-- What the handler has queued. -/
def queued (h : Handling) : List Verification := h.effects.flatMap Effect.queued

/-- The handler of the event has come to this activity. -/
def Reaches (r : Router) (h : Handling) (kind : EventKind) (a : Activity) : Prop :=
  ∃ handler first, r.direct h.event = .handle kind handler ∧ r.call h.event handler = .ok first ∧
    Course first h.effects a

/-- A filter dropped the event, or its handler has come somewhere. -/
def Explained (r : Router) (h : Handling) : Prop :=
  h.effects = [] ∨ ∃ kind a, h.Reaches r kind a

theorem Reaches.add {r : Router} {h : Handling} {kind : EventKind} {a a' : Activity} {x : Effect}
    (hreaches : h.Reaches r kind a) (hx : a.After x a') : (h.add x).Reaches r kind a' := by
  obtain ⟨handler, first, hdirect, hcall, hcourse⟩ := hreaches
  exact ⟨handler, first, hdirect, hcall, hcourse.snoc hx⟩

theorem queued_add (h : Handling) (x : Effect) : (h.add x).queued = h.queued ++ x.queued := by
  rw [queued, add, List.flatMap_append, List.flatMap_singleton, queued]

end Handling

/-- What the events of a task have led to. -/
structure Account where
  /-- The events before the last one. -/
  past : List Handling
  last : Option Handling
  /-- What the steps of the task have added to the queue. -/
  queued : List Verification

namespace Account

def empty : Account := ⟨[], none, []⟩

/-- The events that were routed, in order. -/
def handlings (a : Account) : List Handling := a.past ++ a.last.toList

/-- The account after a step of the agenda. -/
def turn (c : Collaborators χ σ ρ π) (s : Shared χ σ π) (a : Account) : Agenda → Account
  | ⟨some d, _⟩ =>
    match d.activity.effect? c s with
    | some x => { a with last := a.last.map (·.add x) }
    | none => a
  | ⟨none, e :: _⟩ => { a with past := a.handlings, last := some ⟨e, []⟩ }
  | ⟨none, []⟩ => a

/-- The account after a step of the task. -/
def next (c : Collaborators χ σ ρ π) (t : Task ρ) (s s' : Shared χ σ π) (a : Account) : Account :=
  let queued := a.queued ++ s'.outbound.log.drop s.outbound.log.length
  match t.agenda? with
  | some agenda => { a.turn c s agenda with queued }
  | none => { a with queued }

instance : Recorder Account := ⟨empty, fun c _ _ t _ s s' a => a.next c t s s'⟩

end Account

/-! ### Faithful accounts -/

/-- The account is that of the events in the journal, and of what their handlers did. -/
structure Faithful (r : Router) (t : Task ρ) (log : List Note) (a : Account) : Prop where
  events : a.handlings.map (·.event) = routed log
  explained : ∀ h ∈ a.handlings, h.Explained r
  current : ∀ d, t.current? = some d → ∃ h, a.last = some h ∧ h.event = d.event ∧ h.Reaches r d.kind d.activity
  queued : a.queued = a.handlings.flatMap Handling.queued

namespace Faithful

variable {r : Router} {t t' : Task ρ} {log : List Note} {a : Account} {cancelled : Bool}
  {c : Collaborators χ σ ρ π} {s s' : Shared χ σ π}

theorem begin (r : Router) (height : Option Chain.Height) : Faithful r (.begin height : Task ρ) [] .empty where
  events := rfl
  explained _ hh := absurd hh List.not_mem_nil
  current _ hd := by cases hd
  queued := rfl

/-- A step that routes no event, has no effect of a handler, and queues nothing. -/
theorem keep (h : Faithful r t log a) (hrouted : routed (t.note cancelled) = [])
    (hturn : ∀ agenda, t.agenda? = some agenda → a.turn c s agenda = a)
    (hlog : s'.outbound.log = s.outbound.log) (hcurrent : t'.current? = none) :
    Faithful r t' (log ++ t.note cancelled) (a.next c t s s') := by
  have hnext : a.next c t s s' = a := by
    have hdrop : s'.outbound.log.drop s.outbound.log.length = [] := by rw [hlog, List.drop_length]
    unfold Account.next
    rw [hdrop, List.append_nil]
    split
    next agenda hp => rw [hturn agenda hp]
    next => rfl
  rw [hnext]
  refine ⟨?_, h.explained, fun d hd => ?_, h.queued⟩
  · rw [routed_append, hrouted, List.append_nil]
    exact h.events
  · rw [hcurrent] at hd
    cases hd

/-- A step that is not one of an agenda, and queues nothing. -/
theorem idle (h : Faithful r t log a) (hp : t.agenda? = none) (hlog : s'.outbound.log = s.outbound.log)
    (hcurrent : t'.current? = none) : Faithful r t' (log ++ t.note cancelled) (a.next c t s s') := by
  refine h.keep ?_ (fun agenda hagenda => ?_) hlog hcurrent
  · unfold Task.note
    split
    next => split <;> rfl
    next => rfl
    next hp' =>
      rw [Task.agenda?, hp'] at hp
      cases hp
    next => rfl
  · rw [hp] at hagenda
    cases hagenda

/-- The handler of the event in hand has an effect. -/
theorem acted (h : Faithful r t log a) {d : Routing.Dispatch} {waiting : List Event} {feed : ρ} {x : Effect}
    {b : Activity} (hp : t.phase = .handling ⟨some d, waiting⟩ feed) (hx : d.activity.effect? c s = some x)
    (hafter : d.activity.After x b) (hturns : x.Turns c s s') :
    Faithful r { t with phase := .handling ⟨some { d with activity := b }, waiting⟩ feed }
      (log ++ t.note cancelled) (a.next c t s s') := by
  have hnote : t.note cancelled = [] := by simp [Task.note, hp]
  have hagenda : t.agenda? = some ⟨some d, waiting⟩ := by simp [Task.agenda?, hp]
  obtain ⟨y, hlast, hevent, hreaches⟩ := h.current d (by rw [Task.current?, hagenda]; rfl)
  have hgrown := hreaches.add hafter
  have hnext : a.next c t s s' = ⟨a.past, some (y.add x), a.queued ++ x.queued⟩ := by
    simp only [Account.next, hagenda, Account.turn, hx, hlast, Option.map_some, hturns.log, List.drop_left]
  have hevents := h.events
  have hqueued := h.queued
  rw [Account.handlings, hlast] at hevents hqueued
  rw [hnext, hnote, List.append_nil]
  refine ⟨?_, fun z hz => ?_, fun d' hd' => ?_, ?_⟩
  · rw [← hevents, Account.handlings, List.map_append, List.map_append]
    rfl
  · rcases List.mem_append.mp hz with hz | hz
    · exact h.explained z (List.mem_append_left _ hz)
    · obtain rfl := List.mem_singleton.mp hz
      exact .inr ⟨_, _, hgrown⟩
  · cases hd'
    exact ⟨y.add x, rfl, hevent, hgrown⟩
  · rw [hqueued, Account.handlings, List.flatMap_append, List.flatMap_append, Option.toList_some,
      Option.toList_some, List.flatMap_singleton, List.flatMap_singleton, Handling.queued_add, List.append_assoc]

/-- The router turns to the next event; if that goes to a handler, the handler has had no effect yet. -/
theorem turned (h : Faithful r t log a) {e : Event} {waiting : List Event} {feed : ρ}
    {current : Option Routing.Dispatch} (hp : t.phase = .handling ⟨none, e :: waiting⟩ feed)
    (hlog : s'.outbound.log = s.outbound.log)
    (hcurrent : ∀ d, current = some d → d.event = e ∧ Handling.Reaches r ⟨e, []⟩ d.kind d.activity) :
    Faithful r { t with phase := .handling ⟨current, waiting⟩ feed } (log ++ t.note cancelled) (a.next c t s s') := by
  have hnote : t.note cancelled = [.routed e] := by simp [Task.note, hp]
  have hnext : a.next c t s s' = ⟨a.handlings, some ⟨e, []⟩, a.queued⟩ := by
    rw [Account.next, Task.agenda?, hp, hlog, List.drop_length, List.append_nil]
    rfl
  rw [hnext, hnote]
  refine ⟨?_, fun z hz => ?_, fun d hd => ?_, ?_⟩
  · rw [Account.handlings, List.map_append, h.events, routed_append]
    rfl
  · rcases List.mem_append.mp hz with hz | hz
    · exact h.explained z hz
    · obtain rfl := List.mem_singleton.mp hz
      exact .inl rfl
  · obtain ⟨hevent, hreaches⟩ := hcurrent d hd
    exact ⟨⟨e, []⟩, rfl, hevent.symm, hreaches⟩
  · have hnothing : (a.handlings ++ [(⟨e, []⟩ : Handling)]).flatMap Handling.queued =
        a.handlings.flatMap Handling.queued := by
      rw [List.flatMap_append]
      exact List.append_nil _
    exact h.queued.trans hnothing.symm

/-- A step of an agenda keeps the account faithful. -/
theorem agenda (h : Faithful r t log a) {agenda agenda' : Agenda} {feed : ρ} (hp : t.phase = .handling agenda feed)
    (ha : agenda.step r c s = .moved (agenda', s')) :
    Faithful r { t with phase := .handling agenda' feed } (log ++ t.note cancelled) (a.next c t s s') := by
  cases Agenda.step_change ha with
  | @ended d waiting ending hending =>
    refine h.keep (by simp [Task.note, hp, routed]) (fun agenda hagenda => ?_) ?_ rfl
    · rw [Task.agenda?, hp] at hagenda
      obtain rfl := Option.some.inj hagenda
      simp only [Account.turn, Activity.effect?_of_ending hending]
    · unfold Routing.report
      split <;> rfl
  | acted hx hafter hturns => exact h.acted hp hx hafter hturns
  | ignored hdirect => exact h.turned hp rfl fun d hd => by cases hd
  | @called e waiting kind handler activity hdirect hcall =>
    refine h.turned hp rfl fun d hd => ?_
    obtain rfl := Option.some.inj hd
    exact ⟨rfl, handler, activity, hdirect, hcall, .nil⟩

/-- A step of the task keeps the account faithful. -/
theorem step {d : Driver} {now : Nat} (h : Faithful d.router t log a)
    (hchange : Task.Change d c cancelled now t s t' s') :
    Faithful d.router t' (log ++ t.note cancelled) (a.next c t s s') := by
  cases hchange with
  | handled hp ha => exact h.agenda hp ha
  | settled hp ha =>
    rw [Agenda.of_step_over ha] at hp
    refine h.keep (by simp [Task.note, hp, routed]) (fun agenda hagenda => ?_) rfl rfl
    rw [Task.agenda?, hp] at hagenda
    cases hagenda
    rfl
  | dismissed hc hp =>
    refine h.idle ?_ rfl rfl
    rcases hp with hp | ⟨_, hp⟩ | ⟨_, _, hp⟩ <;> simp [Task.agenda?, hp]
  | known hp | found hp | unknown hp | opened _ hp | refused _ hp | took _ hp | broke _ hp | completed _ hp
  | advanced hp | surpassed hp | quit hp | gaveUp hp | restarting hp | restarted _ hp =>
    exact h.idle (by simp [Task.agenda?, hp]) rfl rfl

end Faithful

/-! ### What the default handlers lead to -/

/-- A decision that was queued for an event after its scope had been found pending. -/
structure Decides (r : Router) (h : Handling) (v : Verification) : Prop where
  queued : h.queued = [v]
  kind : h.event.kind = some .onboardAsset
  event : v.event = h.event
  /-- The scope was looked up for this event, and the answer was that it is pending. -/
  pending : v.scope.status = .pending ∧ ∃ scope, h.event.scopeAddress = some scope ∧
    .scopeRecord r.contract scope (.value (.ok v.scope)) ∈ h.effects

/-- The default handlers queue nothing for an event, or one decision about a pending scope. -/
theorem Handling.Explained.decides {r : Router} {h : Handling} (hexplained : h.Explained r)
    (hr : r.registry = .default) : h.queued = [] ∨ ∃ v, Decides r h v := by
  rcases hexplained with hnone | ⟨kind, a, handler, first, hdirect, hcall, hcourse⟩
  · exact .inl (by rw [Handling.queued, hnone]; rfl)
  · obtain ⟨hkind, -, hget⟩ := Router.of_direct hdirect
    rw [hr] at hget
    refine ((Handler.default_once hget hcall).queued hcourse).imp id ?_
    rintro ⟨v, before, after, rest, hqueued, heffects, hbefore⟩
    obtain ⟨rfl, rfl⟩ := Handler.default_enqueues hget hcall hbefore
    obtain ⟨-, -, scope, asset, hscope, hevent, hpending, hxs⟩ := Handler.onboarding_enqueues hbefore
    refine ⟨v, hqueued, hkind, hevent, hpending, scope, hscope, ?_⟩
    rw [heffects, hxs]
    exact List.mem_append_left _ (List.mem_cons_self ..)

end Attestor.Stream
