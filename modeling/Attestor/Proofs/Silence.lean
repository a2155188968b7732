import Attestor.Proofs.Headway

/-!
Silence between a stop and the next start. However an engine came to be stopped, as long as no run is begun it
broadcasts nothing, hands nothing over, opens no stream and caches no sequence, and its two queues grow by what is
published meanwhile (`Silenced.silent`). The next run goes on with them: what had accumulated is taken first and in
order, all of it is taken once the tasks have had their turns, and the numbers of the first transaction were read from
the chain since (`History.stopped_silent`).
-/

namespace Attestor

open Chain (Account Ledger SignedTransaction)
open Contract (Verification)
open Sequence (Snapshot)
open Submission (Loop)

variable {σ ρ π : Type}

/-! ### Queues that are served -/

/-- Between two states of a queue these items were taken and these published: first of all is taken what waited. -/
structure Queue.Serves {α : Type} (q q' : Queue α) (taken new : List α) : Prop where
  history : q'.history = q.history ++ taken
  log : q'.log = q.log ++ new
  inOrder : taken ++ q'.items = q.items ++ new

theorem Queue.serves {α : Type} {q q' : Queue α} (hhistory : q.history <+: q'.history) (hlog : q.log <+: q'.log) :
    ∃ taken new, q.Serves q' taken new := by
  obtain ⟨taken, htaken⟩ := hhistory
  obtain ⟨new, hnew⟩ := hlog
  refine ⟨taken, new, htaken.symm, hnew.symm, ?_⟩
  have hall := q'.history_append_items
  rw [← htaken, ← hnew, ← q.history_append_items, List.append_assoc, List.append_assoc] at hall
  exact List.append_cancel_left hall

namespace Service

/-- No verification that was queued is unsaid. -/
theorem queued_change {χ : Type} {S : Service χ σ ρ π} {e e' : Engine χ σ ρ π} {m : Move} (h : Change S e m e') :
    e.shared.outbound.log <+: e'.shared.outbound.log := by
  cases shared_change h with
  | added hs hd => exact hs.outbound.log
  | consumed hl hd => exact hl.log ▸ List.prefix_refl _
  | delivered hp hs => exact hs ▸ List.prefix_refl _
  | @finished _ run deadline next hl hj he =>
    rw [he]
    cases next <;> exact List.prefix_refl _
  | @aborted _ run deadline next hl hj hd he =>
    have hsame : e'.shared.outbound.log = e.shared.outbound.log := by rw [he, abort, Submission.Loop.abort_eq]
    exact hsame ▸ List.prefix_refl _

/-! ### After the next start -/

/-- The move gives the loop of the run a turn. -/
def Move.isSubmitter : Move → Bool
  | .submitter => true
  | _ => false

/-- The move gives the delivery of the run a turn. -/
def Move.isDelivery : Move → Bool
  | .delivery => true
  | _ => false

theorem any_isSubmitter {move : Option Move} (h : move ≠ some .submitter) : move.any Move.isSubmitter = false := by
  rcases move with _ | m
  · rfl
  · cases m with
    | submitter => exact absurd rfl h
    | _ => rfl

theorem any_isDelivery {move : Option Move} (h : move ≠ some .delivery) : move.any Move.isDelivery = false := by
  rcases move with _ | m
  · rfl
  · cases m with
    | delivery => exact absurd rfl h
    | _ => rfl

namespace History

variable {S : Service Ledger Stream.Script ρ π}

variable (H : S.History)

/-- How many moves of a kind are made from one moment until another. -/
def turns (kind : Move → Bool) (n k : Nat) : Nat := (List.range' n (k - n)).countP fun j => (H.move j).any kind

/-- At a moment the loop of the run reads the account from the chain. -/
structure Reads (j : Nat) (account : Account) : Prop where
  move : H.move j = some .submitter
  answer : (H.past j).chain.account S.submitter.signer.address = .ok account
  cached : (H.past (j + 1)).sequence = some (.ofAccount account)

/-- The numbers were read from the chain after moment `n` and before moment `k`. -/
def ReadSince (n k : Nat) (snapshot : Snapshot) : Prop :=
  ∃ j account, n < j ∧ j < k ∧ H.Reads j account ∧ snapshot = .ofAccount account

/-- No call closes the run from moment `n` until moment `k`. -/
def Open (n k : Nat) : Prop := ∀ j, n < j → j ≤ k → (H.engine j).standing.isClosing = false

variable {H} {chain : Ledger} {source : Stream.Script} {assets : π} {kind : Move → Bool} {n k : Nat} {m : Move}
  {height : Option Chain.Height}

theorem turns_succ (h : n ≤ k) : H.turns kind n (k + 1) = H.turns kind n k + ((H.move k).any kind).toNat := by
  rw [turns, Nat.succ_sub h, List.range'_concat, List.countP_append, List.countP_singleton, Nat.one_mul,
    Nat.add_sub_cancel' h]
  cases (H.move k).any kind <;> rfl

theorem ReadSince.later {snapshot : Snapshot} (h : H.ReadSince n k snapshot) : H.ReadSince n (k + 1) snapshot := by
  obtain ⟨j, account, hnj, hjk, hrest⟩ := h
  exact ⟨j, account, hnj, Nat.lt_succ_of_lt hjk, hrest⟩

theorem queued_later {i j : Nat} (h : i ≤ j) : (H.past i).outbound.log <+: (H.past j).outbound.log := by
  induction h with
  | refl => exact List.prefix_refl _
  | @step j _ ih =>
    refine ih.trans ?_
    rcases H.change j with ⟨m, -, hchange⟩ | ⟨-, chain, source, assets, he⟩
    · exact queued_change hchange
    · rw [past, past, he]
      exact List.prefix_refl _

theorem delivered_later {i j : Nat} (h : i ≤ j) : (H.engine i).delivered <+: (H.engine j).delivered := by
  induction h with
  | refl => exact List.prefix_refl _
  | @step j _ ih => exact ih.trans (delivered_succ j)

/-- A run that was begun and that no call closes goes on. -/
theorem Open.running (h : H.Open n k) (hspawned : H.engine (n + 1) = (H.engine n).spawn height) (hnk : n < k) :
    ∃ run, (H.engine k).lifecycle = .running run := by
  have hstanding : ∀ j, n < j → j ≤ k → (H.engine j).standing = .running ((H.engine n).reports.length + 1) := by
    intro j hnj
    induction hnj with
    | refl =>
      intro _
      rw [hspawned]
      rfl
    | @step j hnj ih =>
      intro hjk
      rcases running_next (ih (Nat.le_of_succ_le hjk)) with hs | ⟨m, next, -, -, hs⟩
      · exact hs
      · have hclosing := h (j + 1) (Nat.lt_succ_of_lt hnj) hjk
        rw [hs] at hclosing
        cases hclosing
  obtain ⟨run, hl, -⟩ := Engine.standing_running (hstanding k hnk (Nat.le_refl k))
  exact ⟨run, hl⟩

/-- What comes next for a run that goes on keeps its token and, unless its delivery has a turn, how far that is. -/
theorem running_kept {run run' : Run ρ} (hl : (H.engine k).lifecycle = .running run)
    (hl' : (H.engine (k + 1)).lifecycle = .running run') :
    run'.cancelled = run.cancelled ∧
      (H.move k ≠ some .delivery → run.delivery = .receiving → run'.delivery = .receiving) := by
  rcases H.change k with ⟨m, hm, hchange⟩ | ⟨-, chain, source, assets, he⟩
  · exact ⟨cancelled_change hchange hl hl',
      fun hmove => delivery_change hchange (fun heq => hmove (by rw [hm, heq])) hl hl'⟩
  · rw [he] at hl'
    cases hl.symm.trans hl'
    exact ⟨rfl, fun _ => id⟩

/-- While the run goes on and the consumer returns, each turn of the delivery hands a diagnostic over, or all that had
accumulated was handed over. -/
theorem delivery_advances (hbegin : H.engine 0 = .initial (.initial chain source assets))
    (hreturns : ∀ ds d, S.consumer.reply ds d ≠ .hangs) (hspawned : H.engine (n + 1) = (H.engine n).spawn height)
    (hopen : H.Open n k) (hnk : n < k) :
    Delivering (H.engine n).delivered.length (H.past n).diagnostics.log.length
      (H.turns Move.isDelivery (n + 1) k) (H.engine k) := by
  induction hnk with
  | refl =>
    refine ⟨.begin ((H.engine n).reports.length + 1) height, by rw [hspawned]; rfl, rfl, .inr ?_⟩
    rw [hspawned, turns, Nat.sub_self]
    exact Nat.le_of_eq (Nat.zero_add _)
  | @step k hnk ih =>
    have hbefore := ih fun j hnj hjk => hopen j hnj (Nat.le_succ_of_le hjk)
    rw [turns_succ hnk]
    by_cases hmove : H.move k = some .delivery
    · rw [H.applied hmove, hmove]
      refine hbefore.turned hreturns (fun run hl => ?_) (delivered_eq hbegin k)
        (log_later (Nat.le_of_succ_le hnk)).length_le
      have hstaged := (tidy hbegin k).staged
      rw [hl] at hstaged
      exact hstaged.draining
    · rw [any_isDelivery hmove]
      obtain ⟨run', hl'⟩ := hopen.running hspawned (Nat.lt_succ_of_lt hnk)
      exact hbefore.kept hl' (fun run hl => (running_kept hl hl').2 hmove) (delivered_later (Nat.le_succ k))

/-- What changes from outside is calm. -/
theorem Honest.calm (h : H.Honest) (hm : H.move k = none) : Calm (H.past k) (H.past (k + 1)) := by
  obtain ⟨chain, source, assets, he⟩ := H.unmoved hm
  exact ⟨(h k hm).1, by rw [past, past, he], by rw [past, past, he]⟩

section

variable (hc : S.collaborators.chain = Ledger.client)
  (hbegin : H.engine 0 = .initial (.initial chain source assets)) (halone : H.Alone) (hhonest : H.Honest)

include hc hbegin halone hhonest

theorem loopTurn (k : Nat) : LoopTurn S (H.engine k) (H.move k) (H.engine (k + 1)) := by
  rcases H.change k with ⟨m, hm, hchange⟩ | ⟨hm, chain, source, assets, he⟩
  · rw [hm]
    exact loop_turn hc (extras_nil hbegin halone k) (unloaded hc hbegin halone hhonest k) hchange
  · rw [hm]
    exact .kept (by rw [he]; rfl) (hhonest.calm hm) (by rw [he]; rfl)

omit halone in
theorem disciplined (k : Nat) : Disciplined S chain.broadcasts (H.engine k) := by
  induction k with
  | zero =>
    rw [hbegin]
    exact .initial chain source assets
  | succ k ih =>
    rcases H.change k with ⟨m, hm, hchange⟩ | ⟨hm, chain, source, assets, he⟩
    · exact ih.move hc hchange
    · exact ih.same (by rw [he]) (by rw [he]) (hhonest.calm hm)

/-- The loop of a run that has only been called finds the submitter free. -/
theorem submitting_of_called (hloop : loopOf (H.engine k) .submitter = some .called) :
    (H.past k).submitting = false := by
  obtain ⟨run, hr, hcalled⟩ := Option.map_eq_some_iff.mp hloop
  have hexclusive := (disciplined hc hbegin hhonest k).orderly.exclusive
  rw [loops_of_run run hr, extras_nil hbegin halone k, hcalled] at hexclusive
  cases hs : (H.past k).submitting with
  | false => rfl
  | true =>
    rw [show (H.engine k).shared.submitting = true from hs] at hexclusive
    cases hexclusive

/-- Until a transaction is broadcast, all numbers that the loop of the run can use were read since the start. -/
theorem renewed_since (hrest : (H.engine n).standing.run? = none)
    (hspawned : H.engine (n + 1) = (H.engine n).spawn height) (hnk : n < k) :
    ((H.past k).chain.broadcasts = (H.past n).chain.broadcasts ∧ RunRenewed (H.ReadSince n k) (H.engine k)) ∨
      ∃ tx later, (H.past k).chain.broadcasts = (H.past n).chain.broadcasts ++ tx :: later ∧
        H.ReadSince n k tx.numbers := by
  induction hnk with
  | refl =>
    refine .inl ⟨by rw [past, hspawned]; rfl, fun l hl => ?_⟩
    rw [hspawned] at hl ⊢
    obtain rfl : Loop.called = l := Option.some.inj hl
    refine ⟨fun snapshot hcached => ?_, trivial⟩
    cases (unloaded hc hbegin halone hhonest n hrest).symm.trans hcached
  | @step k hnk ih =>
    have hturn := loopTurn hc hbegin halone hhonest k
    rcases ih with ⟨hsame, hrenewed⟩ | ⟨tx, later, hsent, hread⟩
    · rcases hturn.renewed (hrenewed.mono fun _ => ReadSince.later) fun hmove account haccount hcached =>
        ⟨k, account, hnk, Nat.lt_succ_self k, ⟨hmove, haccount, hcached⟩, rfl⟩ with ⟨hkept, hafter⟩ | ⟨tx, hnew, hread⟩
      · exact .inl ⟨hkept.trans hsame, hafter⟩
      · exact .inr ⟨tx, [], hnew.trans (congrArg (· ++ [tx]) hsame), hread⟩
    · -- what was broadcast stays
      obtain ⟨more, hmore⟩ := hturn.broadcasts_prefix
      refine .inr ⟨tx, later ++ more, ?_, hread.later⟩
      rw [past, ← hmore, show (H.engine k).shared.chain.broadcasts = _ from hsent, List.append_assoc, List.cons_append]

/-- Until the loop of a run asks for the sequence of the first verification that was taken since the start, none is
cached. -/
theorem unasked_since (hrest : (H.engine n).standing.run? = none)
    (hspawned : H.engine (n + 1) = (H.engine n).spawn height) (hnk : n < k) :
    RunUnasked (H.past n).outbound.history (H.engine k) := by
  induction hnk with
  | refl =>
    have hnone := unloaded hc hbegin halone hhonest n hrest
    rw [hspawned]
    refine ⟨List.prefix_refl _, fun _ => hnone, fun l hl => ?_⟩
    obtain rfl : Loop.called = l := Option.some.inj hl
    exact ⟨List.prefix_refl _, fun _ => ⟨hnone, rfl⟩, fun _ _ _ hx => by cases hx⟩
  | @step k _ ih => exact (loopTurn hc hbegin halone hhonest k).unasked ih

/-- While the run goes on, each turn of its loop brings it forward. -/
theorem loop_advances (hspawned : H.engine (n + 1) = (H.engine n).spawn height) (hopen : H.Open n k) (hnk : n < k) :
    Consuming (H.past n).outbound.history.length (H.past n).outbound.log.length
      (H.turns Move.isSubmitter (n + 1) k) (H.engine k) := by
  induction hnk with
  | refl =>
    refine ⟨.begin ((H.engine n).reports.length + 1) height, by rw [hspawned]; rfl, rfl, Loop.noConfusion, .inr ?_⟩
    rw [hspawned, turns, Nat.sub_self]
    exact Nat.le_of_eq (by simp [Run.begin, Loop.left, Engine.spawn, past])
  | @step k hnk ih =>
    have hsofar : H.Open n k := fun j hnj hjk => hopen j hnj (Nat.le_succ_of_le hjk)
    have hbefore := ih hsofar
    rw [turns_succ hnk]
    by_cases hmove : H.move k = some .submitter
    · rw [H.applied hmove, hmove]
      exact hbefore.turned (submitting_of_called hc hbegin halone hhonest)
        (queued_later (Nat.le_of_succ_le hnk)).length_le
    · rw [any_isSubmitter hmove]
      obtain ⟨run', hl'⟩ := hopen.running hspawned (Nat.lt_succ_of_lt hnk)
      obtain ⟨run, hl⟩ := hsofar.running hspawned hnk
      obtain ⟨hloop, hhistory⟩ := (loopTurn hc hbegin halone hhonest k).kept_of_running hmove hl
      exact hbefore.kept hl' (fun run hl => (running_kept hl hl').1) hloop hhistory

end

end History

/-! ### Silence, and what comes after it -/

/-- What the run does that is begun at moment `n`. -/
structure Resumes {S : Service Ledger Stream.Script ρ π} (H : S.History) (n : Nat) : Prop where
  begun : ∃ id height, (H.engine (n + 1)).lifecycle = .running (.begin id height)
  /-- The verifications that had accumulated are taken first, in the order in which they were queued. -/
  verifications : ∀ {k}, n < k → ∃ taken new, (H.past n).outbound.Serves (H.past k).outbound taken new
  /-- The diagnostics that had accumulated are handed over first, in the order in which they were published. -/
  diagnostics : ∀ {k}, n < k → ∃ given new, (H.past n).diagnostics.Serves (H.past k).diagnostics given new ∧
    (H.engine k).delivered = (H.engine n).delivered ++ given
  /-- Eight turns for each verification, and two to begin, are enough to take all that had accumulated. -/
  submitted : ∀ {k}, n < k → H.Open n k →
    8 * (H.past n).outbound.items.length + 2 ≤ H.turns Move.isSubmitter (n + 1) k →
    (H.past n).outbound.log <+: (H.past k).outbound.history
  /-- A turn for each diagnostic is enough to hand over all that had accumulated, if the consumer returns. -/
  handed : (∀ ds d, S.consumer.reply ds d ≠ .hangs) → ∀ {k}, n < k → H.Open n k →
    (H.past n).diagnostics.items.length ≤ H.turns Move.isDelivery (n + 1) k →
    (H.past n).diagnostics.log <+: (H.engine k).delivered
  /-- The sequence of the first submission is asked from the chain. -/
  asked : ∀ {k v}, n < k → H.move k = some .submitter →
    loopOf (H.engine k) .submitter = some (.submitting (.begin v)) →
    (H.past k).outbound.history = (H.past n).outbound.history ++ [v] →
    loopOf (H.engine (k + 1)) .submitter = some (.submitting ⟨v,
      match (H.past k).chain.account S.submitter.signer.address with
      | .ok account => .numbered (.ofAccount account)
      | .error failure => .answered (.error (.chain failure))⟩)
  /-- The first transaction that is broadcast bears numbers that were read from the chain since. -/
  renewed : ∀ {k tx later}, n < k →
    (H.past k).chain.broadcasts = (H.past n).chain.broadcasts ++ tx :: later → H.ReadSince n k tx.numbers

/-- Between a stop and the next start there is silence, and nothing is forgotten. -/
structure Silenced {S : Service Ledger Stream.Script ρ π} (H : S.History) : Prop where
  /-- As long as no run is begun after a stop, there is silence, and no sequence is cached. -/
  silent : ∀ {i n k}, H.Completes .stop i n → n ≤ k → H.Unstarted n k → H.Silent n k ∧ (H.past k).sequence = none
  /-- The next start resumes with what has accumulated. -/
  resumes : ∀ {i n k m}, H.Completes .stop i n → n ≤ k → H.Unstarted n k → H.move k = some m → m.starts = true → Resumes H k

namespace History

variable {S : Service Ledger Stream.Script ρ π} {H : S.History} {chain : Ledger} {source : Stream.Script} {assets : π}
  {n k : Nat} {m : Move}

theorem resumes (hc : S.collaborators.chain = Ledger.client)
    (hbegin : H.engine 0 = .initial (.initial chain source assets)) (halone : H.Alone) (hhonest : H.Honest)
    (hrest : (H.engine n).standing.run? = none) (hm : H.move n = some m) (hstarts : m.starts = true) : Resumes H n := by
  obtain ⟨height, hcall⟩ := Move.of_starts hstarts
  have hspawned := spawned hrest hm hcall
  have hshared : H.past (n + 1) = H.past n := by rw [past, hspawned]; rfl
  refine
    { begun := ⟨_, height, by rw [hspawned]; rfl⟩
      verifications := fun hnk => Queue.serves (taken_mono (Nat.le_of_lt hnk)) (queued_later (Nat.le_of_lt hnk))
      diagnostics := fun {k} hnk => ?_
      submitted := fun {k} hnk hopen hturns => ?_
      handed := fun hreturns {k} hnk hopen hturns => ?_
      asked := fun {k v} hnk hmove hloop hfirst => ?_
      renewed := fun {k tx later} hnk hsent => ?_ }
  · have hprefix := delivered_later (H := H) (Nat.le_of_lt hnk)
    rw [delivered_eq hbegin, delivered_eq hbegin] at hprefix
    obtain ⟨given, new, hserves⟩ := Queue.serves hprefix (log_later (Nat.le_of_lt hnk))
    refine ⟨given, new, hserves, ?_⟩
    rw [delivered_eq hbegin, delivered_eq hbegin]
    exact hserves.history
  · obtain ⟨run, -, -, hadvances⟩ := loop_advances hc hbegin halone hhonest hspawned hopen hnk
    have hlength := congrArg List.length (H.past n).outbound.history_append_items
    rw [List.length_append] at hlength
    refine List.prefix_of_prefix_length_le (queued_later (Nat.le_of_lt hnk)) (List.take_prefix _ _) ?_
    have hbound := hadvances.bound
    rw [show (H.engine k).shared = H.past k from rfl] at hbound
    change _ ≤ (H.past k).outbound.history.length
    omega
  · obtain ⟨run, -, -, hbound⟩ := delivery_advances hbegin hreturns hspawned hopen hnk
    have hlength := congrArg List.length (H.past n).diagnostics.history_append_items
    rw [List.length_append, ← delivered_eq hbegin] at hlength
    have hgiven : (H.engine k).delivered <+: (H.past k).diagnostics.log := by
      rw [delivered_eq hbegin]
      exact List.take_prefix _ _
    exact List.prefix_of_prefix_length_le (log_later (Nat.le_of_lt hnk)) hgiven (by omega)
  · rw [H.applied hmove]
    have hunasked := (unasked_since hc hbegin halone hhonest hrest hspawned hnk).loop _ hloop
    exact apply_asks hc hloop (hunasked.begun v hfirst _ rfl rfl)
  · rcases renewed_since hc hbegin halone hhonest hrest hspawned hnk with ⟨hsame, -⟩ | ⟨tx', later', hsent', hread⟩
    · rw [hsame] at hsent
      exact absurd hsent (by simp)
    · rw [hsent'] at hsent
      exact (List.cons.inj (List.append_cancel_left hsent)).1 ▸ hread

/-- **A stopped engine is silent, and forgets nothing**, however it came to be stopped. The engine keeps its submitter to
itself, and the records of the ledger and of the source are not tampered with. -/
theorem stopped_silent (hc : S.collaborators.chain = Ledger.client)
    (hbegin : H.engine 0 = .initial (.initial chain source assets)) (halone : H.Alone) (hhonest : H.Honest) :
    Silenced H where
  silent hstop hnk hidle :=
    ⟨silent hc hbegin halone hhonest hstop.rests hnk hidle,
      unloaded hc hbegin halone hhonest _ (rests hstop.rests hnk hidle)⟩
  resumes hstop hnk hidle hm hstarts :=
    resumes hc hbegin halone hhonest (rests hstop.rests hnk hidle) hm hstarts

end History

/-! ### A stop, what accumulates, and the next start -/

/-- In a history of a few things in which no loop is called, the engine is alone. -/
theorem alone_history {S : Service Ledger σ ρ π} {e : Engine Ledger σ ρ π} {hs : List (Happening σ π)}
    (h : ∀ x ∈ hs, x.move? ≠ some .consume) : (S.history e hs).Alone := by
  intro i hi
  obtain ⟨x, hx, hmove⟩ := Option.bind_eq_some_iff.mp hi
  exact h x (List.mem_of_getElem? hx) hmove

/-- In a history of a few things in which the source is left alone, the records are not tampered with. -/
theorem honest_history {S : Service Ledger Stream.Script ρ π} {e : Engine Ledger Stream.Script ρ π}
    {hs : List (Happening Stream.Script π)} (h : ∀ x ∈ hs, ∀ source, x ≠ .source source) :
    (S.history e hs).Honest := by
  intro i hi
  cases hx : hs[i]? with
  | none =>
    have hlen := List.getElem?_eq_none_iff.mp hx
    have hsame : (S.history e hs).engine (i + 1) = (S.history e hs).engine i := by
      simp only [history, List.take_of_length_le hlen, List.take_of_length_le (Nat.le_succ_of_le hlen)]
    rw [History.past, History.past, hsame]
    exact ⟨rfl, rfl⟩
  | some x =>
    have hnext : (S.history e hs).engine (i + 1) = S.happen ((S.history e hs).engine i) x := by
      simp only [history, live, List.take_add_one, hx, Option.toList_some, List.foldl_append, List.foldl_cons,
        List.foldl_nil]
    rw [History.past, History.past, hnext]
    cases x with
    | move m =>
      rw [show (S.history e hs).move i = hs[i]?.bind Happening.move? from rfl, hx] at hi
      cases hi
    | edit x => exact ⟨Ledger.broadcasts_edit _ x, rfl⟩
    | source source => exact absurd rfl (h _ (List.mem_of_getElem? hx) source)
    | assets assets => exact ⟨rfl, rfl⟩

namespace Sample

/-- A past transaction with an onboarding event. -/
def past : List Chain.Event :=
  [⟨6, "past", "wasm",
    [⟨Contract.Key.contractAddress.text, "contract"⟩, ⟨Contract.Key.eventType.text, "onboard_asset"⟩,
      ⟨Contract.Key.assetType.text, "loan"⟩, ⟨Contract.Key.scopeAddress.text, "scope"⟩,
      ⟨Contract.Key.verifierAddress.text, "verifier"⟩]⟩]

/-- The engine is started and stopped. Then a diagnostic is published, the past transaction is replayed, time passes,
and the account on the ledger changes. The next start finds a verification and two diagnostics. -/
def waking : List (Happening Stream.Script Asset.Fixed) :=
  calls.take 14 ++
    [.move (.publish (.custom "audit" "written")), .edit (.putTransaction "past" past), .move (.replay "past")] ++
    List.replicate 8 (.move (.replaying 0)) ++
    [.move (.tick 60000), .move .stop, .edit (.setAccount ⟨"verifier", 3, 9⟩), .move (.start none)] ++
    List.replicate 10 (.move .submitter) ++ List.replicate 2 (.move .delivery)

/-- Nothing is broadcast until the next start, and the first transaction after it bears the numbers on the ledger. -/
theorem waking_silenced :
    (service.history start waking).Alone ∧ (service.history start waking).Honest ∧
      Silenced (service.history start waking) ∧ (service.history start waking).Completes .stop 2 14 ∧
      (service.history start waking).Unstarted 14 28 ∧
      (service.history start waking).move 28 = some (.start none) ∧
      ((service.history start waking).past 28).chain.broadcasts = [] ∧
      ((service.history start waking).past 28).outbound.items.length = 1 ∧
      ((service.history start waking).past 28).outbound.log <+:
        ((service.history start waking).past 39).outbound.history ∧
      ((service.history start waking).past 28).diagnostics.log <+:
        ((service.history start waking).engine 41).delivered ∧
      ∃ tx, ((service.history start waking).past 41).chain.broadcasts = [tx] ∧ tx.numbers = ⟨3, 9⟩ ∧
        (service.history start waking).ReadSince 28 41 tx.numbers := by
  have hbegin : (service.history start waking).engine 0 = .initial (.initial ledger script .approving) := rfl
  have halone : (service.history start waking).Alone :=
    alone_history (by simp [waking, calls, Happening.move?])
  have hhonest : (service.history start waking).Honest :=
    honest_history (by simp [waking, calls])
  have hsilenced : Silenced (service.history start waking) := History.stopped_silent rfl hbegin halone hhonest
  have hmeanwhile : ∀ k < 14, 2 < k →
      ((service.history start waking).engine k).standing.isClosing = true := by decide +kernel
  have hstop : (service.history start waking).Completes .stop 2 14 :=
    ⟨rfl, rfl, by decide, fun k hk hlt => hmeanwhile k hlt hk, rfl⟩
  have hnothing : ∀ j < 28, 14 ≤ j →
      ((service.history start waking).move j).any Move.starts = false := by decide +kernel
  have hidle : (service.history start waking).Unstarted 14 28 := fun j hj hlt => hnothing j hlt hj
  have hresumes := hsilenced.resumes hstop (by decide) hidle rfl rfl
  have hgoesOn : ∀ j < 42, 28 < j →
      ((service.history start waking).engine j).standing.isClosing = false := by decide +kernel
  have hopen : (service.history start waking).Open 28 41 := fun j hj hle => hgoesOn j (Nat.lt_succ_of_le hle) hj
  have hsilent : ((service.history start waking).past 28).chain.broadcasts = [] :=
    (hsilenced.silent hstop (by decide) hidle).1.broadcasts
  have hone : ((service.history start waking).past 41).chain.broadcasts.length = 1 := by decide +kernel
  obtain ⟨tx, htx⟩ := List.length_eq_one_iff.mp hone
  have hnumbers : ((service.history start waking).past 41).chain.broadcasts.map Chain.SignedTransaction.numbers =
      [⟨3, 9⟩] := by decide +kernel
  rw [htx] at hnumbers
  refine ⟨halone, hhonest, hsilenced, hstop, hidle, rfl, hsilent, by decide +kernel, ?_, ?_, tx, htx,
    (List.cons.inj hnumbers).1, hresumes.renewed (by decide) (by rw [hsilent]; exact htx)⟩
  · exact hresumes.submitted (by decide) (fun j hj hle => hopen j hj (hle.trans (by decide))) (by decide +kernel)
  · exact hresumes.handed (fun _ _ => nofun) (by decide) hopen (by decide +kernel)

end Sample

end Service

end Attestor
