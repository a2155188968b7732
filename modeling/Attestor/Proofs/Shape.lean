import Attestor.Chain.Ledger
import Attestor.Proofs.Standing

/-!
The shape of a run of the stream task. What the task tells by itself follows the lives of its stream: it starts the
stream again after each completion and each failure that a restart may mend, and gives up at the first other failure;
with restarts disabled it starts the stream once. A run that returns has announced its exit after all else, and no
other exit, so long as no handler does (`run_shaped`).
-/

namespace Attestor

open Handler (Activity Effect)
open Attestor.Stream (exit?)

variable {χ σ ρ π : Type}

/-! ### Handlers that announce no exit -/

/-- The activity announces no exit, whatever answers it gets. -/
def Handler.Activity.Discreet : Activity → Prop
  | .publish d rest => exit? d = none ∧ rest.Discreet
  | .enqueue _ rest => rest.Discreet
  | .scopeRecord _ _ rest => ∀ answer, (rest answer).Discreet
  | .retrieve _ rest => ∀ answer, (rest answer).Discreet
  | .verify _ _ rest => ∀ answer, (rest answer).Discreet
  | _ => True

/-- No handler of the router announces an exit. -/
def Routing.Router.Discreet (r : Router) : Prop :=
  ∀ kind handler call a, r.registry.get? kind = some handler → handler call = .ok a → a.Discreet

theorem Handler.Activity.Discreet.resume {α : Type} {rest : α → Activity} (h : ∀ answer, (rest answer).Discreet)
    (answer : Answer α) : (resume rest answer).Discreet := by
  cases answer with
  | value a => exact h a
  | panic p => trivial

theorem Handler.Activity.Discreet.after {a b : Activity} {x : Effect} (h : a.Discreet) (hx : a.After x b) :
    (∀ d ∈ x.told, exit? d = none) ∧ b.Discreet := by
  cases hx with
  | @publish told rest =>
    refine ⟨fun d hd => ?_, h.2⟩
    obtain rfl : d = told := List.mem_singleton.mp hd
    exact h.1
  | enqueue => exact ⟨List.forall_mem_nil _, h⟩
  | scopeRecord => exact ⟨List.forall_mem_nil _, Discreet.resume h _⟩
  | retrieve => exact ⟨List.forall_mem_nil _, Discreet.resume h _⟩
  | verify => exact ⟨List.forall_mem_nil _, Discreet.resume h _⟩

/-- An activity is discreet that keeps to a conduct in which no exit is announced. -/
theorem Handler.Activity.KeepsTo.discreet {r : Handler.Conduct}
    (hr : ∀ xs d, r.effect xs (.publish d) → exit? d = none) {a : Activity} {xs : List Effect}
    (h : a.KeepsTo r xs) : a.Discreet := by
  induction a generalizing xs with
  | publish d rest ih => exact ⟨hr xs d h.1, ih h.2⟩
  | enqueue v rest ih => exact ih h.2
  | scopeRecord contract scope rest ih => exact fun answer => ih answer (h.2.2 answer)
  | retrieve scope rest ih => exact fun answer => ih answer (h.2.2 answer)
  | verify scope asset rest ih => exact fun answer => ih answer (h.2.2 answer)
  | _ => trivial

/-- The default handlers announce no exit. -/
theorem Routing.Router.discreet_of_default {r : Router} (hr : r.registry = .default) : r.Discreet := by
  intro kind handler call a hget hcall
  rw [hr] at hget
  refine (Handler.default_keepsTo hget hcall).discreet fun xs d hd => ?_
  cases d with
  | exited exit => exact absurd hd.1 id
  | _ => rfl

end Attestor

namespace Attestor.Stream

open Chain (Height)
open Restart (Mode Policy)

variable {χ σ ρ π : Type}

/-! ### One exit -/

theorem Restarted.exit?_of_mem {mode : Mode} {ls : List Life} {told : List Diagnostic} (h : Restarted mode ls told)
    {d : Diagnostic} (hd : d ∈ told) : exit? d = none := by
  cases mode with
  | disabled =>
    rw [h.2] at hd
    cases hd
  | enabled policy =>
    rw [h.2] at hd
    exact exit?_of_mem_script hd

/-- Before its exit a task announces none. -/
theorem Returns.exit?_of_mem {mode : Mode} {start : Option Height} {interrupted : Prop} {lives : Lives}
    {told : List Diagnostic} {exit : Exit} (h : Returns mode start interrupted lives told exit) {d : Diagnostic}
    (hd : d ∈ told) : exit? d = none := by
  cases h with
  | unopened hc hls hh => exact hls.exit?_of_mem hd
  | opened hc hls =>
    rcases List.mem_append.mp hd with hd | hd
    · exact hls.exit?_of_mem hd
    · exact (mem_announcements hd).1
  | asleep hc hm hls hl =>
    rcases List.mem_append.mp hd with hd | hd
    · rcases List.mem_append.mp hd with hd | hd
      · exact hls.exit?_of_mem hd
      · exact (Life.mem_told hd).1
    · rw [List.mem_singleton.mp hd]
      rfl
  | finished hm => exact (Life.mem_told hd).1
  | gaveUp hm hls hf hnot =>
    rcases List.mem_append.mp hd with hd | hd
    · exact hls.exit?_of_mem hd
    · exact (Life.mem_told hd).1

/-- Nothing that was told while events were handled announces an exit, and neither will the handler at work. -/
structure Reserved (t : Task ρ) (k : Chronicle) : Prop where
  current : ∀ d, t.current? = some d → d.activity.Discreet
  handled : ∀ d ∈ k.handled, exit? d = none

namespace Reserved

variable {t t' : Task ρ} {k : Chronicle} {d : Driver} {c : Collaborators χ σ ρ π} {cancelled : Bool} {now : Nat}
  {s s' : Shared χ σ π}

theorem begin (start : Option Height) : Reserved (.begin start : Task ρ) .empty :=
  ⟨nofun, List.forall_mem_nil _⟩

/-- A step of the agenda. -/
theorem agenda {r : Routing.Router} (hr : r.Discreet) {a a' : Routing.Agenda}
    (h : ∀ d, a.current = some d → d.activity.Discreet) (hstep : a.step r c s = .moved (a', s')) :
    (∀ d, a'.current = some d → d.activity.Discreet) ∧ ∀ d ∈ Chronicle.news s s', exit? d = none := by
  cases Routing.Agenda.step_change hstep with
  | @ended d waiting ending hending =>
    refine ⟨nofun, ?_⟩
    unfold Routing.report
    split
    · rw [Chronicle.news_self]
      exact List.forall_mem_nil _
    · rw [Chronicle.news_publish]
      intro d hd
      rw [List.mem_singleton.mp hd]
      rfl
  | acted hx hafter hturns =>
    obtain ⟨htold, hrest⟩ := (h _ rfl).after hafter
    rw [Chronicle.news_turns hturns]
    exact ⟨fun d hd => Option.some.inj hd ▸ hrest, htold⟩
  | ignored hdirect =>
    rw [Chronicle.news_publish]
    refine ⟨nofun, fun d hd => ?_⟩
    rw [List.mem_singleton.mp hd]
    rfl
  | called hdirect hcall =>
    rw [Chronicle.news_self]
    refine ⟨fun d hd => ?_, List.forall_mem_nil _⟩
    obtain rfl := Option.some.inj hd
    exact hr _ _ _ _ (Routing.Router.of_direct hdirect).2.2 hcall

theorem step (hr : d.router.Discreet) (h : Reserved t k) (hchange : Task.Change d c cancelled now t s t' s') :
    Reserved t' (k.next c t cancelled now s s') := by
  rcases hchange.current with ⟨agenda, feed, agenda', hp, rfl, hstep⟩ | ⟨⟨-, hcurrent⟩, -, hquiet⟩
  · have hagenda : t.agenda? = some agenda := by rw [Task.agenda?, hp]
    have hcurrent : t.current? = agenda.current := by rw [Task.current?, hagenda, Option.bind_some]
    obtain ⟨hnext, hnews⟩ := Reserved.agenda hr (hcurrent ▸ h.current) hstep
    rw [Chronicle.next_handled now hagenda]
    refine ⟨hnext, fun d hd => ?_⟩
    rw [Chronicle.handled_publish] at hd
    rcases List.mem_append.mp hd with hd | hd
    · exact h.handled d hd
    · exact hnews d hd
  · constructor
    · intro d hd
      rw [hcurrent] at hd
      cases hd
    · rw [Chronicle.handled_next now hquiet]
      exact h.handled

end Reserved

/-! ### Runs -/

/-- The task waits: for its feed, for the handler of an event, or for the time of a restart. -/
def Task.Waits (source : Source σ ρ) (now : Nat) (t : Task ρ) : Prop :=
  (∃ feed, t.phase = .reading feed ∧ source.next feed = .pending) ∨ (∃ agenda, t.agenda? = some agenda) ∨
    ∃ wake attempt, t.phase = .sleeping wake attempt ∧ now < wake

/-- A task that has not left moves, or waits. -/
theorem Task.moves_or_waits (d : Driver) (c : Collaborators χ σ ρ π) (t : Task ρ) (ht : t.exit? = none)
    (cancelled : Bool) (now : Nat) (s : Shared χ σ π) :
    (∃ next, t.step d c cancelled now s = .moved next) ∨ t.Waits c.source now := by
  obtain ⟨tracked, retry, phase⟩ := t
  cases phase with
  | lookup =>
    refine .inl ?_
    cases tracked with
    | some height => exact ⟨_, rfl⟩
    | none =>
      simp only [step, lookUp]
      rcases c.source.currentHeight s.source with ⟨f | height, source⟩ <;> exact ⟨_, rfl⟩
  | opening =>
    refine .inl ?_
    cases cancelled with
    | true => exact ⟨_, rfl⟩
    | false =>
      simp only [step, openStream]
      rcases c.source.start tracked s.source with ⟨f | feed, source⟩ <;> exact ⟨_, rfl⟩
  | reading feed =>
    cases cancelled with
    | true => exact .inl ⟨_, rfl⟩
    | false =>
      simp only [step, read]
      cases hnext : c.source.next feed with
      | pending => exact .inr (.inl ⟨feed, rfl, hnext⟩)
      | _ => exact .inl ⟨_, rfl⟩
  | received b feed =>
    simp only [step, accept]
    split <;> exact .inl ⟨_, rfl⟩
  | handling agenda feed => exact .inr (.inr (.inl ⟨agenda, rfl⟩))
  | ended error recoverable =>
    simp only [step, recover]
    split
    · exact .inl ⟨_, rfl⟩
    · split <;> exact .inl ⟨_, rfl⟩
  | sleeping wake attempt =>
    cases cancelled with
    | true => exact .inl ⟨_, rfl⟩
    | false =>
      by_cases hwake : wake ≤ now
      · exact .inl ⟨_, by simp only [step, hwake, if_true]; rfl⟩
      · exact .inr (.inr (.inr ⟨wake, attempt, rfl, Nat.lt_of_not_le hwake⟩))
  | leaving exit => cases ht

namespace Returns

variable {mode : Mode} {policy : Policy} {start : Option Height} {interrupted : Prop} {lives : Lives}
  {told : List Diagnostic} {exit : Exit}

/-- A run says that it was cancelled only if it was. -/
theorem of_cancelled (h : Returns mode start interrupted lives told exit) (hreason : exit.reason = .cancelled) :
    interrupted := by
  cases h with
  | unopened hc hls hh => exact hc
  | opened hc hls => exact hc
  | asleep hc hm hls hl => exact hc
  | @finished l hm =>
    unfold Life.finalReason at hreason
    cases hf : l.failure <;> simp [hf] at hreason
  | gaveUp hm hls hf hnot => cases hreason

theorem disabled (h : Returns .disabled start interrupted lives told exit) (hreason : exit.reason ≠ .cancelled) :
    ∃ l, lives = ⟨[l], none⟩ ∧ told = l.told ∧ exit = ⟨l.height, l.finalReason⟩ := by
  cases h with
  | @finished l hm => exact ⟨l, rfl, rfl, rfl⟩
  | gaveUp hm hls hf hnot => cases hm
  | _ => exact absurd rfl hreason

theorem enabled (h : Returns (.enabled policy) start interrupted lives told exit)
    (hreason : exit.reason ≠ .cancelled) :
    ∃ ls l f, lives = ⟨ls ++ [l], none⟩ ∧ (∀ l ∈ ls, l.recoverable = true) ∧ l.failure = some f ∧
      f.recoverable = false ∧ exit = ⟨l.height, .unrecoverable f.reason⟩ ∧ told = script policy [] ls ++ l.told := by
  cases h with
  | finished hm => cases hm
  | @gaveUp policy' ls l f told hm hls hf hnot =>
    obtain ⟨hrecoverable, rfl⟩ := hls
    exact ⟨ls, l, f, rfl, hrecoverable, hf, hnot, rfl, rfl⟩
  | _ => exact absurd rfl hreason

/-- With restarts disabled the stream is started once at most, and no restart is announced. -/
theorem single (h : Returns .disabled start interrupted lives told exit) :
    lives.starts ≤ 1 ∧ ∀ d ∈ told, isRestarting d = false := by
  cases h with
  | unopened hc hls hh =>
    obtain ⟨rfl, rfl⟩ := hls
    exact ⟨Nat.zero_le 1, List.forall_mem_nil _⟩
  | opened hc hls =>
    obtain ⟨rfl, rfl⟩ := hls
    exact ⟨Nat.le_refl 1, fun d hd => (mem_announcements hd).2⟩
  | asleep hc hm hls hl => cases hm
  | finished hm => exact ⟨Nat.le_refl 1, fun d hd => (Life.mem_told hd).2⟩
  | gaveUp hm hls hf hnot => cases hm

end Returns

theorem Stands.single {start : Option Height} {interrupted : Prop} {t : Task ρ} {k : Chronicle}
    (h : Stands .disabled start interrupted t k) :
    k.lives.starts ≤ 1 ∧ ∀ d ∈ k.told, isRestarting d = false := by
  unfold Stands at h
  split at h
  · obtain ⟨ls, hlives, ⟨rfl, htold⟩, -⟩ := h
    rw [hlives, htold]
    exact ⟨Nat.zero_le 1, List.forall_mem_nil _⟩
  · obtain ⟨ls, hlives, ⟨rfl, htold⟩, -⟩ := h
    rw [hlives, htold]
    exact ⟨Nat.zero_le 1, List.forall_mem_nil _⟩
  · obtain ⟨ls, o, before, hlives, ⟨rfl, rfl⟩, -, htold, -⟩ := h
    rw [hlives, htold]
    exact ⟨Nat.le_refl 1, fun d hd => (mem_announcements hd).2⟩
  · obtain ⟨ls, o, before, hlives, ⟨rfl, rfl⟩, -, htold, -⟩ := h
    rw [hlives, htold]
    exact ⟨Nat.le_refl 1, fun d hd => (mem_announcements hd).2⟩
  · obtain ⟨ls, o, before, hlives, ⟨rfl, rfl⟩, -, htold, -⟩ := h
    rw [hlives, htold]
    refine ⟨Nat.le_refl 1, fun d hd => ?_⟩
    rcases List.mem_append.mp hd with hd | hd
    · exact (mem_announcements hd).2
    · rw [List.mem_singleton.mp hd]
      rfl
  · obtain ⟨ls, l, before, ⟨hlives, ⟨rfl, rfl⟩, -⟩, -, htold, -⟩ := h
    rw [hlives, htold]
    exact ⟨Nat.le_refl 1, fun d hd => (Life.mem_told hd).2⟩
  · obtain ⟨ls, l, before, policy, emission, earlier, -, -, hm, -⟩ := h
    cases hm
  · obtain ⟨before, time, rfl, hreturns⟩ := h
    obtain ⟨hstarts, htold⟩ := hreturns.single
    rw [Chronicle.told_publish]
    refine ⟨hstarts, fun d hd => ?_⟩
    rcases List.mem_append.mp hd with hd | hd
    · exact htold d hd
    · rw [List.mem_singleton.mp hd]
      rfl

/-- What a run has told and seen that has come to its exit. -/
structure Left (d : Driver) (interrupted : Prop) (k : Chronicle) (exit : Exit) : Prop where
  /-- The exit was announced after all else. -/
  last : ∃ emissions time, k.emissions = emissions ++ [⟨time, false, .exited exit⟩]
  once : k.told.filterMap exit? = [exit]
  /-- It is the only one, unless a handler announces another. -/
  alone : d.router.Discreet → (k.emissions.map Emission.diagnostic).filterMap exit? = [exit]
  dismissed : exit.reason = .cancelled → interrupted
  /-- With restarts disabled the end of the stream is the end of the run. -/
  disabled : d.restart = .disabled → exit.reason ≠ .cancelled →
    ∃ l, k.lives = ⟨[l], none⟩ ∧ k.told = l.told ++ [.exited exit] ∧ exit = ⟨l.height, l.finalReason⟩
  /-- With restarts enabled the run has gone on up to the first failure that a restart does not mend. -/
  enabled : ∀ policy, d.restart = .enabled policy → exit.reason ≠ .cancelled →
    ∃ ls l f, k.lives = ⟨ls ++ [l], none⟩ ∧ (∀ l ∈ ls, l.recoverable = true) ∧ l.failure = some f ∧
      f.recoverable = false ∧ exit = ⟨l.height, .unrecoverable f.reason⟩ ∧
      k.told = script policy [] ls ++ l.told ++ [.exited exit]

/-- The shape of a run, at any point of it. -/
structure Shaped (d : Driver) (c : Collaborators χ σ ρ π) (start : Option Height) (interrupted : Prop)
    (p : Played Chronicle χ σ ρ π) : Prop where
  stands : Stands d.restart start interrupted p.task p.record
  /-- The stream is started again from the height that is tracked. -/
  continued : Continued start p.record.lives
  /-- It is started again no sooner than was announced. -/
  waited : Fitting Waited p.record.own
  /-- With restarts disabled it is not started again. -/
  single : d.restart = .disabled →
    p.record.lives.starts ≤ 1 ∧ ∀ x ∈ p.record.told, isRestarting x = false
  left : ∀ exit, p.task.exit? = some exit → Left d interrupted p.record exit
  /-- A run that has not come to its exit goes on, so long as it need not wait. -/
  goesOn : p.task.exit? = none → ∀ cancelled now s,
    (∃ next, p.task.step d c cancelled now s = .moved next) ∨ p.task.Waits c.source now

theorem Stands.left {d : Driver} {start : Option Height} {interrupted : Prop} {t : Task ρ} {k : Chronicle}
    (h : Stands d.restart start interrupted t k) (hreserved : d.router.Discreet → Reserved t k) {exit : Exit}
    (hexit : t.exit? = some exit) : Left d interrupted k exit := by
  have hp : t.phase = .leaving exit := by
    unfold Task.exit? at hexit
    split at hexit
    next hp => exact Option.some.inj hexit ▸ hp
    next => cases hexit
  simp only [Stands, hp] at h
  obtain ⟨before, time, rfl, hreturns⟩ := h
  have hnone : ∀ d ∈ before.told, exit? d = none := fun d hd => hreturns.exit?_of_mem hd
  have htold := Chronicle.told_publish (k := before) time (.exited exit)
  refine
    { last := ⟨before.emissions, time, rfl⟩
      once := ?_
      alone := fun hdiscreet => ?_
      dismissed := fun hreason => ?_
      disabled := fun hm hreason => ?_
      enabled := fun policy hm hreason => ?_ }
  · rw [htold, List.filterMap_append, List.filterMap_eq_nil_iff.mpr hnone]
    rfl
  · have hhandled := (hreserved hdiscreet).handled
    rw [Chronicle.handled_publish_own] at hhandled
    have hall : ∀ x ∈ before.emissions.map Emission.diagnostic, exit? x = none := by
      intro x hx
      rcases Chronicle.mem_emissions hx with hx | hx
      · exact hnone x hx
      · exact hhandled x hx
    have hemissions : (before.publish time false [.exited exit]).emissions =
        before.emissions ++ [⟨time, false, .exited exit⟩] := rfl
    rw [hemissions, List.map_append, List.filterMap_append, List.filterMap_eq_nil_iff.mpr hall]
    rfl
  · exact hreturns.of_cancelled hreason
  · rw [hm] at hreturns
    obtain ⟨l, hlives, hbefore, hexit⟩ := hreturns.disabled hreason
    exact ⟨l, hlives, by rw [htold, hbefore], hexit⟩
  · rw [hm] at hreturns
    obtain ⟨ls, l, f, hlives, hls, hf, hnot, hexit, hbefore⟩ := hreturns.enabled hreason
    exact ⟨ls, l, f, hlives, hls, hf, hnot, hexit, by rw [htold, hbefore]⟩

/-- **What a run tells follows the lives of its stream up to the exit, which comes last and once**, whatever the source,
the start and the restart mode are, whenever the task makes its steps and whenever it is cancelled, and whatever others
do in between. -/
theorem run_shaped (d : Driver) (c : Collaborators χ σ ρ π) (start : Option Height) (s : Shared χ σ π)
    (turns : List (Turn χ σ π)) :
    Shaped d c start (∃ x ∈ turns, x.cancelled = true) ((Played.begin start s).run d c turns) := by
  have hstands := Played.run_induction (d := d) (c := c)
    (P := fun t _ k => Stands d.restart start (∃ x ∈ turns, x.cancelled = true) t k ∧ Continued start k.lives ∧
      Fitting Waited k.own ∧ (d.router.Discreet → Reserved t k))
    turns (fun x hx => fun {t t' log k s s'} ⟨hstands, hcontinued, hwaited, hreserved⟩ hchange =>
      ⟨hstands.step (fun hc => ⟨x, hx, hc⟩) hchange, hcontinued.step hstands c x.cancelled x.now s s',
        waited_step hwaited hstands hchange, fun hr => (hreserved hr).step hr hchange⟩)
    (p := .begin start s) ⟨.begin .., .nil, .nil, fun _ => .begin start⟩
  obtain ⟨hstands, hcontinued, hwaited, hreserved⟩ := hstands
  exact
    { stands := hstands
      continued := hcontinued
      waited := hwaited
      single := fun hm => Stands.single (hm ▸ hstands)
      left := fun exit hexit => hstands.left hreserved hexit
      goesOn := fun hexit cancelled now s => Task.moves_or_waits d c _ hexit cancelled now s }

namespace Sample

/-- A block, a failure that a restart may mend, a start that fails so too, a completion, and a failure for good. -/
def retries : Script :=
  { Script.empty with
    runs := [.ok ⟨[.ok ⟨7, []⟩, .error ⟨"reset", true⟩], .hangs⟩, .error ⟨"refused", true⟩, .ok ⟨[], .completes⟩,
      .ok ⟨[.error ⟨"pruned", false⟩], .hangs⟩] }

def escalating : Driver := ⟨⟨"contract", .fixed "verifier" [] (.ok []), .default⟩, .enabled ⟨100, .exponential 250⟩⟩

def scripted : Collaborators Chain.Ledger Script Feed Asset.Fixed :=
  ⟨Chain.Ledger.client, Script.source, Asset.Fixed.verifier⟩

/-- A step every tenth of a second. -/
def steps : List (Turn Chain.Ledger Script Asset.Fixed) := (List.range 30).map fun n => ⟨false, 100 * n, id⟩

def retried : Played Chronicle Chain.Ledger Script Feed Asset.Fixed :=
  (Played.begin none (.initial .empty retries .approving)).run escalating scripted steps

/-- The attempt and the delay of a restart that is announced. -/
def attempt? : Diagnostic → Option (UInt32 × UInt64)
  | .restarting _ attempt delay _ => some (attempt, delay)
  | _ => none

/-- The sample run is restarted three times at one height, and gives up at the failure for good. -/
theorem retried_shaped :
    escalating.router.Discreet ∧
      Shaped escalating scripted none (∃ x ∈ steps, x.cancelled = true) retried ∧
      retried.record.told.filterMap attempt? = [(0, 100), (1, 200), (2, 250)] ∧
      retried.task.exit? = some ⟨some 7, .unrecoverable "pruned"⟩ :=
  ⟨Routing.Router.discreet_of_default rfl, run_shaped escalating scripted none _ steps, by decide +kernel,
    by decide +kernel⟩

end Sample

end Attestor.Stream
