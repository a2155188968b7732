import Attestor.Proofs.Completion
import Attestor.Proofs.Questions

/-!
A stream task in step with a routing of the same events somewhere else, by the same router, but with other
collaborators and to their ends at once. The events may differ in their encodings. As long as equal questions get equal
answers, the task has the effects of the routing, up to encodings, whatever others do between its steps; and it comes
through its block if the routing comes to an end, or gets stuck where the routing does (`block_reaches`).

`Reaches` says how far the task gets, and with which effects. It is proved by induction on the activity of the other
side, then on its events.
-/

namespace Attestor

open Contract (Event EventKind)
open Handler (Activity Effect Ending Performed)
open Handler.Effect (questions questions_append questions_publish questions_of_plain)

/-- The effects of an activity are that of the step ahead, and those that come after. -/
theorem Handler.Activity.effects_step {χ σ ρ π : Type} (c : Collaborators χ σ ρ π) (a : Activity) (s : Shared χ σ π) :
    a.effects c s = (a.effect? c s).toList ++ (a.step c s).1.effects c (a.step c s).2 := by
  cases a with
  | scopeRecord contract scope rest =>
    rw [effects, effect?, step]
    rcases c.chain.scopeRecord contract scope s.chain with ⟨_ | _, _⟩ <;> rfl
  | retrieve scope rest =>
    rw [effects, effect?, step]
    rcases c.assets.retrieve scope s.assets with ⟨_ | _, _⟩ <;> rfl
  | verify scope asset rest =>
    rw [effects, effect?, step]
    rcases c.assets.verify scope asset s.assets with ⟨_ | _, _⟩ <;> rfl
  | _ => rfl

namespace Stream

open Chain (Block)
open Routing (Agenda Routed Router)

variable {χ σ ρ π χ' σ' ρ' π' : Type}

/-! ### How far a task gets -/

/-- The task is busy with a block. -/
def Task.Busy (t : Task ρ) : Prop :=
  (∃ b feed, t.phase = .received b feed) ∨ ∃ agenda feed, t.phase = .handling agenda feed

theorem Task.busy_of_handling {t : Task ρ} {agenda : Agenda} {feed : ρ} (hp : t.phase = .handling agenda feed) :
    t.Busy :=
  .inr ⟨agenda, feed, hp⟩

/-- Where the task is when routing an event has ended so. -/
def Task.Comes (d : Driver) (c : Collaborators χ σ ρ π) (phase : Phase ρ) (t : Task ρ) : Routed → Prop
  | .settled _ => t.phase = phase
  | stuck => t.Stuck d c stuck

/-- Where the task is when routing all events has ended so. -/
def Task.Ends (d : Driver) (c : Collaborators χ σ ρ π) (phase : Phase ρ) (t : Task ρ) : Except Routed Nat → Prop
  | .ok _ => t.phase = phase
  | .error stuck => t.Stuck d c stuck

theorem Task.ends_map {d : Driver} {c : Collaborators χ σ ρ π} {phase : Phase ρ} {t : Task ρ} (f : Nat → Nat)
    (result : Except Routed Nat) : t.Ends d c phase (result.map f) = t.Ends d c phase result := by
  cases result <;> rfl

/-- The event in hand is this one, and the activity of its handler has ended so, or it hangs. -/
def Task.Spent (e : Event) (kind : EventKind) (waiting : List Event) (feed : ρ) (ending : Option Ending)
    (t : Task ρ) : Prop :=
  ∃ b : Activity, t.phase = .handling ⟨some ⟨e, kind, b⟩, waiting⟩ feed ∧ b.ending? = ending ∧
    (b.ending? = none → b = .hang)

/-- From one moment on the task is busy, until it is as said; and meanwhile it has these effects, up to encodings. -/
def Reaches (live : Nat → Played Doings χ σ ρ π) (i : Nat) (P : Task ρ → Prop) (ys : List Effect) : Prop :=
  ∃ j, i ≤ j ∧ (∀ m, i ≤ m → m < j → (live m).task.Busy) ∧ P (live j).task ∧
    ∃ xs, (live j).record = (live i).record.after xs ∧ xs.map Effect.plain = ys.map Effect.plain

section

variable {live : Nat → Played Doings χ σ ρ π} {i : Nat} {P Q : Task ρ → Prop} {xs ys zs asked : List Effect}

namespace Reaches

theorem here (h : P (live i).task) : Reaches live i P [] :=
  ⟨i, Nat.le_refl i, fun _ hle hlt => absurd hlt (Nat.not_lt.mpr hle), h, [], (Doings.after_nil _).symm, rfl⟩

/-- One turn. -/
theorem turn (hbusy : (live i).task.Busy) (h : P (live (i + 1)).task)
    (hdoings : (live (i + 1)).record = (live i).record.after xs) (hxs : xs.map Effect.plain = ys.map Effect.plain) :
    Reaches live i P ys := by
  refine ⟨i + 1, Nat.le_succ i, fun m hle hlt => ?_, h, xs, hdoings, hxs⟩
  obtain rfl : m = i := by omega
  exact hbusy

theorem asked_first {past : List Effect} (h : past ++ questions (ys ++ zs) <+: asked) :
    past ++ questions ys <+: asked := by
  rw [questions_append, ← List.append_assoc] at h
  exact (List.prefix_append _ _).trans h

/-- Goes on from where the task has come to. Of all questions, those that were asked so far come first. -/
theorem trans (h : Reaches live i P ys) (hasked : (live i).record.asked ++ questions (ys ++ zs) <+: asked)
    (hnext : ∀ j, P (live j).task → (live j).record.asked ++ questions zs <+: asked → Reaches live j Q zs) :
    Reaches live i Q (ys ++ zs) := by
  obtain ⟨j, hij, hbusy, hj, xs, hdoings, hxs⟩ := h
  have hquestions : (live j).record.asked = (live i).record.asked ++ questions ys := by
    rw [hdoings, ← questions_of_plain hxs]
    rfl
  obtain ⟨k, hjk, hbusy', hk, xs', hdoings', hxs'⟩ := hnext j hj (by
    rwa [hquestions, List.append_assoc, ← questions_append])
  refine ⟨k, Nat.le_trans hij hjk, fun m hle hlt => ?_, hk, xs ++ xs', ?_, ?_⟩
  · by_cases hm : m < j
    · exact hbusy m hle hm
    · exact hbusy' m (Nat.le_of_not_lt hm) hlt
  · rw [hdoings', hdoings, Doings.after_append]
  · rw [List.map_append, List.map_append, hxs, hxs']

end Reaches

/-- A question that is asked on both sides gets one answer. -/
theorem answered (hanswers : ∀ n, AnsweredAlike (live n).record.asked asked) {x y : Effect}
    (hdoings : (live (i + 1)).record = (live i).record.after [x]) (hx : x.asks = true) (hy : y.asks = true)
    (hasked : (live i).record.asked ++ questions (y :: ys) <+: asked) (hrepeats : x.Repeats y) : x = y := by
  obtain ⟨later, hlater⟩ := hasked
  refine hanswers (i + 1) (live i).record.asked x y [] (questions ys ++ later) ?_ ?_ hrepeats
  · rw [hdoings]
    simp [Doings.after, questions, hx]
  · rw [← hlater]
    simp [questions, hy]

/-- After a question that was answered alike on both sides, the activities go on with the answer, or end in a panic. -/
theorem resume_reaches {α : Type} {rest rest' : α → Activity} {answer : Answer α} {x : Effect} {e : Event}
    {kind : EventKind} {waiting : List Event} {feed : ρ} {c' : Collaborators χ' σ' ρ' π'} {s' : Shared χ' σ' π'}
    (hbusy : (live i).task.Busy)
    (hp : (live (i + 1)).task.phase = .handling ⟨some ⟨e, kind, Activity.resume rest answer⟩, waiting⟩ feed)
    (hdoings : (live (i + 1)).record = (live i).record.after [x])
    (hasked : (live i).record.asked ++ questions ([x] ++ (Activity.resume rest' answer).effects c' s') <+: asked)
    (hrest : ∀ a {j}, (live j).task.phase = .handling ⟨some ⟨e, kind, rest a⟩, waiting⟩ feed →
      (live j).record.asked ++ questions ((rest' a).effects c' s') <+: asked →
      Reaches live j (Task.Spent e kind waiting feed ((rest' a).run c' s').1) ((rest' a).effects c' s')) :
    Reaches live i (Task.Spent e kind waiting feed ((Activity.resume rest' answer).run c' s').1)
      ([x] ++ (Activity.resume rest' answer).effects c' s') := by
  cases answer with
  | value a =>
    have hturn : Reaches live i (fun t => t.phase = .handling ⟨some ⟨e, kind, rest a⟩, waiting⟩ feed) [x] :=
      .turn hbusy hp hdoings rfl
    exact hturn.trans hasked fun j hj hasked => hrest a hj hasked
  | panic p => exact .turn hbusy ⟨_, hp, rfl, nofun⟩ hdoings rfl

end

/-! ### Turns -/

section

variable {live : Nat → Played Doings χ σ ρ π} {d : Driver} {c : Collaborators χ σ ρ π} {turns : Nat → Turn χ σ π}
  (hlive : ∀ n, live (n + 1) = (live n).turn d c (turns n))

include hlive

/-- A turn at which the task makes a step. -/
theorem turn_of_moved {i : Nat} {t : Task ρ} {s : Shared χ σ π} {xs : List Effect}
    (h : (live i).task.step d c (turns i).cancelled (turns i).now ((turns i).others (live i).shared) = .moved (t, s))
    (hperformed : Performed c ((turns i).others (live i).shared) xs s)
    (hasks : (live i).task.asks c ((turns i).others (live i).shared) = questions xs) :
    (live (i + 1)).task = t ∧ (live (i + 1)).record = (live i).record.after xs := by
  rw [hlive, Played.turn_of_moved h]
  exact ⟨rfl, Task.doings_performed hperformed hasks _⟩

/-- A turn at which the agenda makes a step. -/
theorem turn_of_agenda {i : Nat} {agenda agenda' : Agenda} {feed : ρ} {s : Shared χ σ π} {xs : List Effect}
    (hp : (live i).task.phase = .handling agenda feed)
    (h : agenda.step d.router c ((turns i).others (live i).shared) = .moved (agenda', s))
    (hperformed : Performed c ((turns i).others (live i).shared) xs s)
    (hasks : questions (agenda.current.bind fun d => d.activity.effect? c ((turns i).others (live i).shared)).toList =
      questions xs) :
    (live (i + 1)).task.phase = .handling agenda' feed ∧ (live (i + 1)).record = (live i).record.after xs := by
  have hstep : (live i).task.step d c (turns i).cancelled (turns i).now ((turns i).others (live i).shared) =
      .moved ({ (live i).task with phase := .handling agenda' feed }, s) := by
    simp only [Task.step, hp, h, Task.enter]
  have hcurrent : (live i).task.current? = agenda.current := by simp [Task.current?, Task.agenda?, hp]
  obtain ⟨htask, hdoings⟩ := turn_of_moved hlive hstep hperformed (by rw [Task.asks, hcurrent, hasks])
  exact ⟨by rw [htask], hdoings⟩

/-- A turn at which the handler of the event in hand has an effect. -/
theorem turn_of_acting {i : Nat} {e : Event} {kind : EventKind} {a : Activity} {waiting : List Event} {feed : ρ}
    (hp : (live i).task.phase = .handling ⟨some ⟨e, kind, a⟩, waiting⟩ feed) (hover : a.ending? = none)
    (hhang : a ≠ .hang) :
    ∃ x b, a.After x b ∧ (live (i + 1)).task.phase = .handling ⟨some ⟨e, kind, b⟩, waiting⟩ feed ∧
      (live (i + 1)).record = (live i).record.after [x] := by
  obtain ⟨x, heffect, hafter, hturns⟩ :=
    Activity.step_effect c ((turns i).others (live i).shared) hover hhang
  refine ⟨x, _, hafter, turn_of_agenda hlive hp ?_ (.cons hturns .nil) ?_⟩
  · simp only [Agenda.step, Agenda.handle, hover]
  · simp [heffect]

/-- The end of the activity in hand is reported, or the activity hangs. -/
theorem spent_reaches {e e' : Event} (he : e.plain = e'.plain) {kind : EventKind} {waiting : List Event} {feed : ρ}
    {ending : Option Ending} {i : Nat} (h : (live i).task.Spent e kind waiting feed ending) :
    Reaches live i
      (fun t => t.Comes d c (.handling ⟨none, waiting⟩ feed)
        (ending.elim .hung fun ending => .settled (Routing.outcome kind ending)))
      ((ending.toList.flatMap (Routing.reports e' kind)).map .publish) := by
  obtain ⟨b, hp, hending, hhang⟩ := h
  cases ending with
  | none =>
    obtain rfl := hhang hending
    exact .here fun cancelled now s => by
      simp only [Task.step, hp, Agenda.step, Agenda.handle, Activity.ending?]
  | some ending =>
    have hstep : Agenda.step d.router c ⟨some ⟨e, kind, b⟩, waiting⟩ ((turns i).others (live i).shared) =
        .moved (⟨none, waiting⟩, Routing.report e kind ending ((turns i).others (live i).shared)) := by
      simp only [Agenda.step, Agenda.handle, hending]
    obtain ⟨hphase, hdoings⟩ := turn_of_agenda hlive hp hstep (Routing.report_performed c e kind ending _) (by
      rw [questions_publish]
      simp [Activity.effect?_of_ending hending, questions])
    rw [Option.toList_some, List.flatMap_singleton]
    exact .turn (Task.busy_of_handling hp) hphase hdoings (Routing.reports_plain he kind ending)

/-- When all events are settled, the task reads on. -/
theorem ends_reaches {result : Except Routed Nat} {feed : ρ} {i : Nat}
    (h : (live i).task.Ends d c (.handling ⟨none, []⟩ feed) result) :
    Reaches live i (fun t => t.Ends d c (.reading feed) result) [] := by
  cases result with
  | error stuck => exact .here h
  | ok n =>
    have hp : (live i).task.phase = .handling ⟨none, []⟩ feed := h
    have hstep : (live i).task.step d c (turns i).cancelled (turns i).now ((turns i).others (live i).shared) =
        .moved ({ (live i).task with phase := .reading feed }, (turns i).others (live i).shared) := by
      simp only [Task.step, hp, Agenda.step, Task.enter]
    have hidle : (live i).task.current? = none := by simp [Task.current?, Task.agenda?, hp]
    obtain ⟨htask, hdoings⟩ := turn_of_moved hlive hstep .nil (Task.asks_idle hidle c _)
    exact .turn (Task.busy_of_handling hp) (by rw [htask]; rfl) hdoings rfl

/-! ### In step -/

variable {asked : List Effect} (hanswers : ∀ n, AnsweredAlike (live n).record.asked asked)

include hanswers

/-- The activity of the event in hand has the effects of an activity like it that is run. -/
theorem activity_reaches {a a' : Activity} (h : a.Alike a') {e : Event} {kind : EventKind} {waiting : List Event}
    {feed : ρ} (c' : Collaborators χ' σ' ρ' π') (s' : Shared χ' σ' π') {i : Nat}
    (hp : (live i).task.phase = .handling ⟨some ⟨e, kind, a⟩, waiting⟩ feed)
    (hasked : (live i).record.asked ++ questions (a'.effects c' s') <+: asked) :
    Reaches live i (Task.Spent e kind waiting feed (a'.run c' s').1) (a'.effects c' s') := by
  induction h generalizing i s' with
  | done => exact .here ⟨_, hp, rfl, nofun⟩
  | fail => exact .here ⟨_, hp, rfl, nofun⟩
  | panic => exact .here ⟨_, hp, rfl, nofun⟩
  | hang => exact .here ⟨_, hp, rfl, fun _ => rfl⟩
  | @publish d d' rest rest' hd hrest ih =>
    obtain ⟨x, b, hafter, hphase, hdoings⟩ := turn_of_acting hlive hp rfl nofun
    cases hafter
    have hturn : Reaches live i (fun t => t.phase = .handling ⟨some ⟨e, kind, rest⟩, waiting⟩ feed) [.publish d'] :=
      .turn (Task.busy_of_handling hp) hphase hdoings (congrArg (fun d => [Effect.publish d]) hd)
    exact hturn.trans hasked fun j hj hasked => ih (s'.publish d') hj hasked
  | @enqueue v v' rest rest' hv hrest ih =>
    obtain ⟨x, b, hafter, hphase, hdoings⟩ := turn_of_acting hlive hp rfl nofun
    cases hafter
    have hturn : Reaches live i (fun t => t.phase = .handling ⟨some ⟨e, kind, rest⟩, waiting⟩ feed) [.enqueue v'] :=
      .turn (Task.busy_of_handling hp) hphase hdoings (congrArg (fun v => [Effect.enqueue v]) hv)
    exact hturn.trans hasked fun j hj hasked => ih (s'.enqueue v') hj hasked
  -- questions: the answers are equal, since everything that was asked before was the same
  | scopeRecord hrest ih =>
    obtain ⟨x, b, hafter, hphase, hdoings⟩ := turn_of_acting hlive hp rfl nofun
    cases hafter
    rw [Activity.effects_step] at hasked ⊢
    cases answered hanswers hdoings rfl rfl hasked ⟨rfl, rfl⟩
    rw [← Activity.run_step]
    exact resume_reaches (Task.busy_of_handling hp) hphase hdoings hasked fun a => ih a _
  | retrieve hrest ih =>
    obtain ⟨x, b, hafter, hphase, hdoings⟩ := turn_of_acting hlive hp rfl nofun
    cases hafter
    rw [Activity.effects_step] at hasked ⊢
    cases answered hanswers hdoings rfl rfl hasked rfl
    rw [← Activity.run_step]
    exact resume_reaches (Task.busy_of_handling hp) hphase hdoings hasked fun a => ih a _
  | verify hrest ih =>
    obtain ⟨x, b, hafter, hphase, hdoings⟩ := turn_of_acting hlive hp rfl nofun
    cases hafter
    rw [Activity.effects_step] at hasked ⊢
    cases answered hanswers hdoings rfl rfl hasked ⟨rfl, rfl⟩
    rw [← Activity.run_step]
    exact resume_reaches (Task.busy_of_handling hp) hphase hdoings hasked fun a => ih a _

/-- An event that goes to a handler, on both sides. -/
theorem handled_reaches {e e' : Event} (he : e.plain = e'.plain) {kind : EventKind} {handler : Handler}
    (hdirect : d.router.direct e' = .handle kind handler) {a a' : Activity} (hcall : d.router.call e handler = .ok a)
    (hcall' : d.router.call e' handler = .ok a') (halike : a.Alike a') {waiting : List Event} {feed : ρ}
    (c' : Collaborators χ' σ' ρ' π') (s' : Shared χ' σ' π') {i : Nat}
    (hp : (live i).task.phase = .handling ⟨none, e :: waiting⟩ feed)
    (hasked : (live i).record.asked ++ questions (d.router.effects c' e' s') <+: asked) :
    Reaches live i (fun t => t.Comes d c (.handling ⟨none, waiting⟩ feed) (d.router.route c' e' s').1)
      (d.router.effects c' e' s') := by
  have hsame := d.router.direct_congr he
  have heffects : d.router.effects c' e' s' = [] ++ (a'.effects c' s' ++
      ((a'.run c' s').1.toList.flatMap (Routing.reports e' kind)).map .publish) := by
    simp only [Router.effects, hdirect, hcall', List.nil_append]
  have hroute : (d.router.route c' e' s').1 =
      (a'.run c' s').1.elim .hung fun ending => .settled (Routing.outcome kind ending) := by
    simp only [Router.route, hdirect, hcall']
    rcases a'.run c' s' with ⟨_ | ending, s''⟩ <;> rfl
  obtain ⟨hphase, hdoings⟩ : (live (i + 1)).task.phase = .handling ⟨some ⟨e, kind, a⟩, waiting⟩ feed ∧
      (live (i + 1)).record = (live i).record.after [] :=
    turn_of_agenda hlive hp (by simp only [Agenda.step, Agenda.turn, hsame, hdirect, hcall]) .nil rfl
  have hturn : Reaches live i (fun t => t.phase = .handling ⟨some ⟨e, kind, a⟩, waiting⟩ feed) [] :=
    .turn (Task.busy_of_handling hp) hphase hdoings rfl
  rw [heffects] at hasked ⊢
  rw [hroute]
  refine hturn.trans hasked fun j hj hasked => ?_
  have hactivity := activity_reaches hlive hanswers halike c' s' hj (Reaches.asked_first hasked)
  exact hactivity.trans hasked fun k hk _ => spent_reaches hlive he hk

/-- An event is routed as one that differs in nothing but its encoding. -/
theorem route_reaches (hindifferent : d.router.registry.Indifferent) {e e' : Event} (he : e.plain = e'.plain)
    {waiting : List Event} {feed : ρ} (c' : Collaborators χ' σ' ρ' π') (s' : Shared χ' σ' π') {i : Nat}
    (hp : (live i).task.phase = .handling ⟨none, e :: waiting⟩ feed)
    (hasked : (live i).record.asked ++ questions (d.router.effects c' e' s') <+: asked) :
    Reaches live i (fun t => t.Comes d c (.handling ⟨none, waiting⟩ feed) (d.router.route c' e' s').1)
      (d.router.effects c' e' s') := by
  have hsame := d.router.direct_congr he
  cases hdirect : d.router.direct e' with
  | ignore outcome reason =>
    obtain ⟨heffects, hroute⟩ := Router.route_ignored hdirect c' s'
    rw [heffects, hroute]
    obtain ⟨hphase, hdoings⟩ : (live (i + 1)).task.phase = .handling ⟨none, waiting⟩ feed ∧
        (live (i + 1)).record = (live i).record.after [.publish (.ignored e reason)] :=
      turn_of_agenda hlive hp (by simp only [Agenda.step, Agenda.turn, hsame, hdirect]) (.cons rfl .nil) rfl
    have hd : Diagnostic.plain (.ignored e reason) = Diagnostic.plain (.ignored e' reason) :=
      congrArg (Diagnostic.ignored · reason) he
    exact .turn (Task.busy_of_handling hp) hphase hdoings (congrArg (fun d => [Effect.publish d]) hd)
  | handle kind handler =>
    have hcalls : Handler.SameCalls (d.router.call e handler) (d.router.call e' handler) :=
      hindifferent kind handler (Router.of_direct hdirect).2.2 _ _ (congrArg (Handler.Call.mk · _ _) he)
    generalize hcall : d.router.call e handler = called at hcalls
    generalize hcall' : d.router.call e' handler = called' at hcalls
    cases hcalls with
    | panic p =>
      simp only [Router.effects, Router.route, hdirect, hcall']
      exact .here fun cancelled now s => by simp only [Task.step, hp, Agenda.step, Agenda.turn, hsame, hdirect, hcall]
    | activity halike => exact handled_reaches hlive hanswers he hdirect hcall hcall' halike c' s' hp hasked

/-- Events are routed as events that differ in nothing but their encodings. -/
theorem routeAll_reaches (hindifferent : d.router.registry.Indifferent) {es es' : List Event}
    (hes : es.map Contract.Event.plain = es'.map Contract.Event.plain) {feed : ρ} (c' : Collaborators χ' σ' ρ' π')
    (s' : Shared χ' σ' π') {i : Nat} (hp : (live i).task.phase = .handling ⟨none, es⟩ feed)
    (hasked : (live i).record.asked ++ questions (d.router.allEffects c' es' s') <+: asked) :
    Reaches live i (fun t => t.Ends d c (.handling ⟨none, []⟩ feed) (d.router.routeAll c' es' s').1)
      (d.router.allEffects c' es' s') := by
  induction es' generalizing es s' i with
  | nil =>
    obtain rfl := List.map_eq_nil_iff.mp hes
    exact .here hp
  | cons e' es' ih =>
    obtain ⟨e, es, rfl, he, hrest⟩ := List.map_eq_cons_iff.mp hes
    rw [Router.allEffects] at hasked ⊢
    have hfirst := route_reaches hlive hanswers hindifferent he c' s' hp (Reaches.asked_first hasked)
    refine hfirst.trans hasked fun j hj hasked => ?_
    rw [Router.routeAll_cons]
    rcases hroute : d.router.route c' e' s' with ⟨outcome | _ | p, s''⟩ <;> rw [hroute] at hj hasked
    · simp only [Task.ends_map]
      exact ih hrest s'' hj hasked
    · exact .here hj
    · exact .here hj

end

/-! ### Taking a block -/

/-- A task that is about to take a block has told of it two turns later, and turns to its events. -/
theorem takes_block {live : Nat → Played Doings χ σ ρ π} {d : Driver} {c : Collaborators χ σ ρ π}
    {turns : Nat → Turn χ σ π} (hlive : ∀ n, live (n + 1) = (live n).turn d c (turns n)) {b : Block} {feed rest : ρ}
    (hreading : (live 0).task.phase = .reading feed) (hnext : c.source.next feed = .block b rest)
    (hcancelled : (turns 0).cancelled = false) :
    (live 1).task.Busy ∧ (live 2).task.phase = .handling ⟨none, classified b⟩ rest ∧
      (live 2).record = (live 0).record.after ((announcement (live 0).task.tracked b).map .publish) := by
  have htake : (live 0).task.step d c (turns 0).cancelled (turns 0).now ((turns 0).others (live 0).shared) =
      .moved ({ (live 0).task with phase := .received b rest },
        ((turns 0).others (live 0).shared).publish (.blockReceived b.height b.events.length)) := by
    simp [Task.step, hreading, hcancelled, Task.read, hnext, Task.enter]
  have hidle : (live 0).task.current? = none := by simp [Task.current?, Task.agenda?, hreading]
  obtain ⟨htask, hdoings⟩ : _ ∧ (live 1).record = (live 0).record.after [.publish _] :=
    turn_of_moved hlive htake (.cons rfl .nil) (Task.asks_idle hidle c _)
  have hreceived : (live 1).task.phase = .received b rest := by rw [htask]
  have hidle' : (live 1).task.current? = none := by simp [Task.current?, Task.agenda?, hreceived]
  have htracked : (live 1).task.tracked = (live 0).task.tracked := by rw [htask]
  refine ⟨.inl ⟨b, rest, hreceived⟩, ?_⟩
  unfold announcement
  rw [← htracked]
  by_cases ht : (live 1).task.tracked.all (· ≤ b.height) = true
  · have haccept : (live 1).task.step d c (turns 1).cancelled (turns 1).now ((turns 1).others (live 1).shared) =
        .moved ({ (live 1).task with
          tracked := some b.height
          phase := .handling ⟨none, classified b⟩ rest },
          ((turns 1).others (live 1).shared).publish (.heightAdvanced b.height)) := by
      simp only [Task.step, hreceived, Task.accept, if_pos ht]
      rfl
    obtain ⟨htask', hdoings'⟩ : _ ∧ (live 2).record = (live 1).record.after [.publish _] :=
      turn_of_moved hlive haccept (.cons rfl .nil) (Task.asks_idle hidle' c _)
    rw [htask', hdoings', hdoings, ← Doings.after_append, if_pos ht]
    exact ⟨rfl, rfl⟩
  · have haccept : (live 1).task.step d c (turns 1).cancelled (turns 1).now ((turns 1).others (live 1).shared) =
        .moved ({ (live 1).task with phase := .handling ⟨none, classified b⟩ rest },
          (turns 1).others (live 1).shared) := by
      simp only [Task.step, hreceived, Task.accept, if_neg ht]
      rfl
    obtain ⟨htask', hdoings'⟩ := turn_of_moved hlive haccept .nil (Task.asks_idle hidle' c _)
    rw [htask', hdoings', hdoings, ← Doings.after_append, if_neg ht]
    exact ⟨rfl, rfl⟩

/-- From when it takes a block, a task tells of the block and then has the effects of routing events that are those of
the block up to encodings. -/
theorem block_reaches {live : Nat → Played Doings χ σ ρ π} {d : Driver} {c : Collaborators χ σ ρ π}
    {turns : Nat → Turn χ σ π} (hlive : ∀ n, live (n + 1) = (live n).turn d c (turns n))
    (hindifferent : d.router.registry.Indifferent) {b : Block} {feed rest : ρ} (hstart : (live 0).record = .empty)
    (hreading : (live 0).task.phase = .reading feed) (hnext : c.source.next feed = .block b rest)
    (hcancelled : (turns 0).cancelled = false) {es : List Event}
    (hes : (classified b).map Contract.Event.plain = es.map Contract.Event.plain) (c' : Collaborators χ' σ' ρ' π')
    (s' : Shared χ' σ' π')
    (hanswers : ∀ n, AnsweredAlike (live n).record.asked (questions (d.router.allEffects c' es s'))) :
    ∃ n xs, (∀ m, 0 < m → m < n → (live m).task.Busy) ∧
      (live n).task.Ends d c (.reading rest) (d.router.routeAll c' es s').1 ∧
      (live n).record =
        ⟨announcement (live 0).task.tracked b ++ xs.flatMap Effect.told, xs.flatMap Effect.queued, questions xs⟩ ∧
      xs.map Effect.plain = (d.router.allEffects c' es s').map Effect.plain := by
  obtain ⟨hfirst, hphase, hdoings⟩ := takes_block hlive hreading hnext hcancelled
  have hannounced : (live 2).record = ⟨announcement (live 0).task.tracked b, [], []⟩ := by
    rw [hdoings, hstart, Doings.after, Routing.told_publish, Routing.queued_publish, questions_publish]
    rfl
  have hall : (live 2).record.asked ++ questions (d.router.allEffects c' es s' ++ []) =
      questions (d.router.allEffects c' es s') := by
    rw [hannounced, List.append_nil, List.nil_append]
  have hasked : (live 2).record.asked ++ questions (d.router.allEffects c' es s' ++ []) <+:
      questions (d.router.allEffects c' es s') :=
    ⟨[], by rw [hall, List.append_nil]⟩
  have hrouted := routeAll_reaches hlive hanswers hindifferent hes c' s' hphase (Reaches.asked_first hasked)
  obtain ⟨n, hn, hbusy, hends, xs, hdone, hxs⟩ := hrouted.trans hasked fun j hj _ => ends_reaches hlive hj
  rw [hannounced] at hdone
  rw [List.append_nil] at hxs
  refine ⟨n, xs, fun m hpos hm => ?_, hends, hdone, hxs⟩
  rcases (by omega : m = 1 ∨ 2 ≤ m) with rfl | htwo
  · exact hfirst
  · exact hbusy m htwo hm

end Stream

end Attestor
