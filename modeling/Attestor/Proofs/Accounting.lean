import Attestor.Proofs.Chronicle
import Attestor.Proofs.Outcomes
import Attestor.Proofs.Routings

/-!
Accounting. What a stream task publishes with the default handlers, and what submissions publish, raises counters that
add up: over all labels the counters of events are raised once for each event of the contract in the blocks that the
task has gone through, the counter of blocks once for each block, and the outcomes of submissions once for each
verification (`run_accounted`). It holds whatever the collaborators answer, wherever they panic, and whatever others do
between the steps of the task.
-/

namespace Attestor.Stream

open Chain (Block Height)
open Contract (Event)
open Handler (Activity Effect)
open Handler.Activity (Course)
open Routing (Agenda Router)

variable {χ σ ρ π : Type}

/-! ### One diagnostic for each event -/

theorem news_report (e : Event) (kind : Contract.EventKind) (ending : Handler.Ending) (s : Shared χ σ π) :
    Chronicle.news s (Routing.report e kind ending s) = Routing.reports e kind ending := by
  unfold Routing.report Routing.reports
  cases Routing.complaint ending with
  | none => exact Chronicle.news_self s
  | some error => exact Chronicle.news_publish s _

/-- An event is in hand: its handler keeps to the rules and has come this far, and this was told of it. -/
structure InHand (d : Routing.Dispatch) (told : List Diagnostic) : Prop where
  course : ∃ call first xs, call.event = d.event ∧ Activity.KeepsTo (Handler.Call.conduct call d.kind) first [] ∧
    Course first xs d.activity ∧ told = xs.flatMap Effect.told

/-- The events whose handling is over, and that in hand, are those that were routed; each of them has its diagnostic. -/
structure Tallied (t : Task ρ) (log : List Note) (k : Chronicle) : Prop where
  idle : t.current? = none → List.Forall₂ Diagnostic.Raises (routed log) k.handled
  busy : ∀ d, t.current? = some d → ∃ es before told, routed log = es ++ [d.event] ∧ k.handled = before ++ told ∧
    List.Forall₂ Diagnostic.Raises es before ∧ InHand d told

namespace Tallied

variable {t t' : Task ρ} {log : List Note} {k : Chronicle} {d : Driver} {c : Collaborators χ σ ρ π}
  {cancelled : Bool} {now : Nat} {s s' : Shared χ σ π}

theorem of_idle (ht : t.current? = none) (h : List.Forall₂ Diagnostic.Raises (routed log) k.handled) :
    Tallied t log k :=
  ⟨fun _ => h, fun _ hd => absurd (ht.symm.trans hd) (Option.some_ne_none _).symm⟩

theorem of_busy {x : Routing.Dispatch} {es : List Event} {before told : List Diagnostic} (ht : t.current? = some x)
    (hrouted : routed log = es ++ [x.event]) (hhandled : k.handled = before ++ told)
    (hbefore : List.Forall₂ Diagnostic.Raises es before) (hx : InHand x told) : Tallied t log k := by
  refine ⟨fun hnone => absurd (ht.symm.trans hnone) (Option.some_ne_none _), fun y hy => ?_⟩
  obtain rfl := Option.some.inj (ht.symm.trans hy)
  exact ⟨es, before, told, hrouted, hhandled, hbefore, hx⟩

theorem begin (start : Option Height) : Tallied (.begin start : Task ρ) [] .empty :=
  of_idle rfl .nil

/-- A step of the agenda. -/
theorem agenda {r : Router} (hr : r.registry = .default) {a a' : Agenda} {feed : ρ} (h : Tallied t log k)
    (hp : t.phase = .handling a feed) (hstep : a.step r c s = .moved (a', s')) :
    Tallied ({ t with phase := .handling a' feed } : Task ρ) (log ++ t.note cancelled)
      (k.publish now true (Chronicle.news s s')) := by
  have hcurrent : t.current? = a.current := by simp [Task.current?, Task.agenda?, hp]
  cases Agenda.step_change hstep with
  | @ended e waiting ending hending =>
    have hnote : t.note cancelled = [] := by simp [Task.note, hp]
    obtain ⟨es, before, told, hrouted, hhandled, hbefore, ⟨call, first, xs, hevent, hkeeps, hcourse, rfl⟩⟩ :=
      h.busy e hcurrent
    obtain ⟨x, htold, hconcerns, -⟩ := Routing.keepsTo_concludes hkeeps hcourse hending
    refine of_idle rfl ?_
    rw [hnote, List.append_nil, Chronicle.handled_publish, news_report, hrouted, hhandled, List.append_assoc,
      ← hevent, htold]
    exact List.rel_append hbefore (.cons hconcerns.raises .nil)
  | @acted e waiting x activity s' hx hafter hturns =>
    have hnote : t.note cancelled = [] := by simp [Task.note, hp]
    obtain ⟨es, before, told, hrouted, hhandled, hbefore, ⟨call, first, xs, hevent, hkeeps, hcourse, rfl⟩⟩ :=
      h.busy e hcurrent
    refine of_busy rfl (by rw [hnote, List.append_nil, hrouted]) ?_ hbefore
      ⟨call, first, xs ++ [x], hevent, hkeeps, hcourse.snoc hafter, rfl⟩
    rw [Chronicle.handled_publish, Chronicle.news_turns hturns, hhandled, List.append_assoc, List.flatMap_append,
      List.flatMap_singleton]
  | @ignored e waiting outcome reason hdirect =>
    have hnote : t.note cancelled = [.routed e] := by simp [Task.note, hp]
    refine of_idle rfl ?_
    rw [hnote, routed_append, Chronicle.handled_publish, Chronicle.news_publish]
    exact List.rel_append (h.idle hcurrent) (.cons (Diagnostic.Concerns.raises rfl) .nil)
  | @called e waiting kind handler activity hdirect hcall =>
    have hnote : t.note cancelled = [.routed e] := by simp [Task.note, hp]
    have hget := (Router.of_direct hdirect).2.2
    rw [hr] at hget
    refine of_busy rfl (by rw [hnote, routed_append]; rfl) ?_ (h.idle hcurrent)
      ⟨⟨e, r.contract, r.signer⟩, activity, [], rfl, Handler.default_keepsTo hget hcall, .nil, rfl⟩
    rw [Chronicle.handled_publish, Chronicle.news_self]
    rfl

theorem step (hr : d.router.registry = .default) (h : Tallied t log k)
    (hchange : Task.Change d c cancelled now t s t' s') :
    Tallied t' (log ++ t.note cancelled) (k.next c t cancelled now s s') := by
  rcases hchange.current with ⟨a, feed, a', hp, rfl, hstep⟩ | ⟨⟨hcurrent, hnext⟩, hrouted, hquiet⟩
  · rw [Chronicle.next_handled now (by rw [Task.agenda?, hp])]
    exact h.agenda hr hp hstep
  · refine of_idle hnext ?_
    rw [routed_append, hrouted, List.append_nil, Chronicle.handled_next now hquiet]
    exact h.idle hcurrent

end Tallied

/-! ### One diagnostic for each block -/

/-- The blocks that were taken and not turned to yet: one at most. -/
def Task.held (t : Task ρ) : Nat :=
  match t.phase with
  | .received _ _ => 1
  | _ => 0

/-- The task is between two blocks, or at the end. -/
def Task.Between (t : Task ρ) : Prop := t.agenda? = none ∧ t.held = 0

/-- Only a task that holds a block turns to one. -/
theorem Task.blocks_note {t : Task ρ} (ht : t.held = 0) (cancelled : Bool) : blocks (t.note cancelled) = [] := by
  unfold Task.note
  split
  · cases cancelled <;> rfl
  next hp => simp [Task.held, hp] at ht
  · rfl
  · rfl

/-- A step that tells at most one thing, of no event and no block, and neither takes a block nor turns to one. -/
theorem own_of_unheld {t t' : Task ρ} {s s' : Shared χ σ π} {cancelled : Bool} {ds : List Diagnostic}
    (hnews : Chronicle.news s s' = ds) (hds : ∀ x ∈ ds, x.event = none ∧ .blocksReceived ∉ x.counters)
    (ht : t.held = 0) (ht' : t'.held = 0) :
    (∀ x ∈ Chronicle.news s s', x.event = none) ∧
      Counter.blocksReceived.increase (Chronicle.news s s') + t.held =
        (blocks (t.note cancelled)).length + t'.held := by
  rw [hnews]
  have hnone : Counter.blocksReceived.increase ds = 0 := by
    refine List.count_eq_zero.mpr fun hmem => ?_
    obtain ⟨x, hx, hraised⟩ := List.mem_flatMap.mp hmem
    exact (hds x hx).2 hraised
  rw [hnone, Task.blocks_note ht, ht, ht']
  exact ⟨fun x hx => (hds x hx).1, rfl⟩

/-- A step that is not one of an agenda tells nothing of events, and of a block when it takes it. -/
theorem Task.Change.own {d : Driver} {c : Collaborators χ σ ρ π} {cancelled : Bool} {now : Nat} {t t' : Task ρ}
    {s s' : Shared χ σ π} (h : Task.Change d c cancelled now t s t' s') (ht : t.agenda? = none) :
    (∀ x ∈ Chronicle.news s s', x.event = none) ∧
      Counter.blocksReceived.increase (Chronicle.news s s') + t.held =
        (blocks (t.note cancelled)).length + t'.held := by
  have hself := List.forall_mem_nil fun x : Diagnostic => x.event = none ∧ Counter.blocksReceived ∉ x.counters
  have hone : ∀ d : Diagnostic, d.event = none ∧ .blocksReceived ∉ d.counters →
      ∀ x ∈ [d], x.event = none ∧ .blocksReceived ∉ x.counters := by
    intro d hd x hx
    rwa [List.mem_singleton.mp hx]
  cases h with
  | handled hp ha => simp [Task.agenda?, hp] at ht
  | settled hp ha => simp [Task.agenda?, hp] at ht
  | known hp | broke _ hp => exact own_of_unheld (Chronicle.news_self s) hself (by simp [held, hp]) rfl
  | found hp | unknown hp | opened _ hp | refused _ hp =>
    exact own_of_unheld (Chronicle.news_source s _) hself (by simp [held, hp]) rfl
  | dismissed hc hp =>
    refine own_of_unheld (Chronicle.news_publish s _) (hone _ ⟨rfl, by simp [Diagnostic.counters]⟩) ?_ rfl
    rcases hp with hp | ⟨_, hp⟩ | ⟨_, _, hp⟩ <;> simp [held, hp]
  | completed hc hp hn =>
    exact own_of_unheld (Chronicle.news_publish s _) (hone _ ⟨rfl, List.not_mem_nil⟩) (by simp [held, hp]) rfl
  | quit hp | gaveUp hp | restarted _ hp =>
    exact own_of_unheld (Chronicle.news_publish s _) (hone _ ⟨rfl, by simp [Diagnostic.counters]⟩)
      (by simp [held, hp]) rfl
  | restarting hp hm hr =>
    exact own_of_unheld (Chronicle.news_publish s _)
      (hone _ ⟨rfl, by simp [Diagnostic.counters, Counter.ofDelay]⟩) (by simp [held, hp]) rfl
  | @took feed b rest hc hp hn =>
    rw [Chronicle.news_publish]
    refine ⟨fun x hx => by rw [List.mem_singleton.mp hx]; rfl, ?_⟩
    simp [held, Task.note, hp, blocks, Counter.increase, Diagnostic.counters]
  | @advanced b feed hp ht =>
    rw [Chronicle.news_publish]
    refine ⟨fun x hx => by rw [List.mem_singleton.mp hx]; rfl, ?_⟩
    simp [held, Task.note, hp, blocks, Note.block?, Counter.increase, Diagnostic.counters]
  | @surpassed b feed hp ht =>
    rw [Chronicle.news_self]
    refine ⟨List.forall_mem_nil _, ?_⟩
    simp [held, Task.note, hp, blocks, Note.block?, Counter.increase]

/-- What a task tells by itself is about no event, and counts the blocks. -/
structure Counts (t : Task ρ) (log : List Note) (k : Chronicle) : Prop where
  own : ∀ d ∈ k.told, d.event = none
  blocks : Counter.blocksReceived.increase k.told = (blocks log).length + t.held

theorem Counts.step {d : Driver} {c : Collaborators χ σ ρ π} {cancelled : Bool} {now : Nat} {t t' : Task ρ}
    {log : List Note} {k : Chronicle} {s s' : Shared χ σ π} (h : Counts t log k)
    (hchange : Task.Change d c cancelled now t s t' s') :
    Counts t' (log ++ t.note cancelled) (k.next c t cancelled now s s') := by
  cases hagenda : t.agenda? with
  | none =>
    obtain ⟨hnews, hblocks⟩ := hchange.own hagenda
    constructor
    · rw [Chronicle.told_next now hagenda]
      exact fun d hd => (List.mem_append.mp hd).elim (h.own d) (hnews d)
    · rw [Chronicle.told_next now hagenda, Counter.increase_append, blocks_append, List.length_append, h.blocks]
      omega
  | some agenda =>
    have htold : (k.next c t cancelled now s s').told = k.told := by
      rw [Chronicle.next_handled now hagenda, Chronicle.told, Chronicle.own_publish_handled, Chronicle.told]
    have hheld : t.held = 0 := by
      unfold Task.held
      split
      next hp => simp [Task.agenda?, hp] at hagenda
      next => rfl
    have hnext : t'.held = 0 := by
      cases hchange with
      | took hc hp hn => simp [Task.agenda?, hp] at hagenda
      | _ => rfl
    constructor
    · rw [htold]
      exact h.own
    · rw [htold, h.blocks, blocks_append, Task.blocks_note hheld, List.append_nil, hheld, hnext]

/-! ### Runs -/

/-- What a run has done to the counters. -/
structure Accounted (p : Played Chronicle χ σ ρ π) : Prop where
  /-- Each event whose handling is over has raised one counter of events, once, in the order of the events. -/
  raised : p.task.current? = none → List.Forall₂ Diagnostic.Raises (routed p.journal) p.record.handled
  /-- Between blocks these are the events of the blocks. -/
  events : p.task.Between → routed p.journal = (blocks p.journal).flatMap classified ∧
    Counter.total Counter.countsEvents (p.record.emissions.map Emission.diagnostic) =
      ((blocks p.journal).flatMap classified).length
  blocks : p.task.Between → Counter.blocksReceived.increase (p.record.emissions.map Emission.diagnostic) =
    (blocks p.journal).length

theorem Tallied.accounted {p : Played Chronicle χ σ ρ π} (h : Tallied p.task p.journal p.record)
    (hcounts : Counts p.task p.journal p.record) (hthorough : Thorough p.task p.journal) : Accounted p := by
  have hperm : (p.record.handled ++ p.record.told).Perm (p.record.emissions.map Emission.diagnostic) := by
    rw [Chronicle.handled, Chronicle.told, Chronicle.own, ← List.map_append]
    exact (List.filter_append_perm _ _).map _
  have hidle : p.task.Between → p.task.current? = none := fun hbetween => by
    rw [Task.current?, hbetween.1]
    rfl
  refine ⟨h.idle, fun hbetween => ?_, fun hbetween => ?_⟩
  · have hwaiting : p.task.waiting = [] := by
      unfold Task.waiting
      split
      next hp => simp [Task.Between, Task.agenda?, hp] at hbetween
      next => rfl
    have hrouted := hthorough.routed
    rw [hwaiting, List.append_nil] at hrouted
    refine ⟨hrouted, ?_⟩
    rw [← Counter.total_perm _ hperm, Counter.total_append, Counter.total_events (h.idle (hidle hbetween)),
      Counter.total_events_of_none hcounts.own, Nat.add_zero, hrouted]
  · rw [← Counter.increase_perm hperm, Counter.increase_append,
      Counter.increase_of_raises (h.idle (hidle hbetween)) rfl, hcounts.blocks, hbetween.2, Nat.zero_add, Nat.add_zero]

/-- **The counters add up**: with the default handlers each event of the contract in the blocks of a run raises one
counter of events, once, and each block that of blocks; each verification that is submitted raises one counter of
outcomes, and each failed resynchronisation its own. None of it depends on the order in which the diagnostics are
handled. -/
theorem run_accounted {d : Driver} (hr : d.router.registry = .default) (c : Collaborators χ σ ρ π)
    (start : Option Height) (s : Shared χ σ π) (turns : List (Turn χ σ π)) (b : Submitter)
    (vs : List Contract.Verification) (s' : Shared χ σ π) :
    Accounted ((Played.begin start s).run d c turns) ∧
      (∃ ds, (b.submitAll c.chain vs s').2.diagnostics.log = s'.diagnostics.log ++ ds ∧ b.Counted c.chain s' vs ds) ∧
      ∀ ds ds' : List Diagnostic, ds.Perm ds' → ∀ counter : Counter, counter.increase ds = counter.increase ds' := by
  have hthorough : Thorough (.begin start : Task ρ) [] := ⟨rfl, .nil⟩
  have hrun := Played.run_induction (d := d) (c := c)
    (P := fun t log k => Tallied t log k ∧ Counts t log k ∧ Thorough t log) turns
    (fun _ _ => fun ⟨htallied, hcounts, hthorough⟩ hchange =>
      ⟨htallied.step hr hchange, hcounts.step hchange, hthorough.step hchange⟩)
    (p := .begin start s) ⟨.begin start, ⟨List.forall_mem_nil _, rfl⟩, hthorough⟩
  obtain ⟨htallied, hcounts, hthorough⟩ := hrun
  exact ⟨htallied.accounted hcounts hthorough, b.submitAll_counted c.chain s' vs,
    fun ds ds' hperm counter => Counter.increase_perm hperm counter⟩

namespace Sample

/-- An onboarding event for this verifier, and one of another kind for another contract. -/
def mixed : Block :=
  ⟨7, [⟨7, "hash", "wasm",
      [⟨Contract.Key.contractAddress.text, "contract"⟩, ⟨Contract.Key.eventType.text, "onboard_asset"⟩,
        ⟨Contract.Key.assetType.text, "loan"⟩, ⟨Contract.Key.scopeAddress.text, "scope"⟩,
        ⟨Contract.Key.verifierAddress.text, "verifier"⟩]⟩,
    ⟨7, "hash", "transfer", []⟩,
    ⟨7, "hash", "wasm", [⟨Contract.Key.contractAddress.text, "other"⟩]⟩]⟩

def counting : Driver := ⟨Routing.Sample.router, .disabled⟩

def counted : Played Chronicle Chain.Ledger Script Feed Asset.Fixed :=
  (Played.begin none { Routing.Sample.shared with source := Script.empty.push (.ok ⟨[.ok mixed], .completes⟩) }).run
    counting Routing.Sample.collaborators (List.replicate 20 ⟨false, 0, id⟩)

def submitter : Submitter := ⟨counting.router.signer, "contract", "chain", ⟨[], 1⟩, .sync⟩

/-- Two of the three events of the sample block are counted, and the block; its verification is submitted, which fails,
as the account is not known, and so does reading the sequence again. -/
theorem counted_accounted :
    counting.router.registry = .default ∧ Accounted counted ∧ counted.task.Between ∧
      Counter.total Counter.countsEvents (counted.record.emissions.map Emission.diagnostic) = 2 ∧
      submitter.failedResyncs Chain.Ledger.client counted.shared.outbound.log counted.shared = 1 :=
  ⟨rfl, (run_accounted rfl Routing.Sample.collaborators none _ _ submitter counted.shared.outbound.log
    counted.shared).1, by unfold Task.Between; decide +kernel, by decide +kernel, by decide +kernel⟩

end Sample

end Attestor.Stream
