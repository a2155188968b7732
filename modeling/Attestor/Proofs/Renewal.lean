import Attestor.Proofs.Custody
import Attestor.Proofs.Resting

/-!
Renewal of the sequence. A consumer loop that begins with nothing cached asks the chain for the account before it
numbers its first submission; so what it signs and broadcasts first bears numbers that were read from the chain since
then (`Loop.Change.renewed`). An engine begins every run so, for a run leaves nothing cached, and a loop that was
aborted between signing and broadcasting makes no further step (`LoopTurn.renewed`).
-/

namespace Attestor

open Chain (Ledger SignedTransaction)
open Contract (Verification)
open Sequence (Snapshot)

variable {σ ρ π : Type}

/-! ### Reading the account -/

/-- The numbers that a transaction bears. -/
def Chain.SignedTransaction.numbers (tx : SignedTransaction) : Snapshot := ⟨tx.body.accountNumber, tx.body.sequence⟩

namespace Submission

variable {b : Submitter} {s s' : Shared Ledger σ π}

/-- Reading the sequence again gives what the account says, and caches that. -/
theorem of_resync {address : String} {snapshot : Snapshot} (h : s.resync Ledger.client address = (.ok snapshot, s')) :
    ∃ account, s.chain.account address = .ok account ∧ snapshot = .ofAccount account ∧
      s'.sequence = some (.ofAccount account) := by
  simp only [Shared.resync, Sequence.resync, Ledger.client] at h
  cases haccount : s.chain.account address with
  | ok account =>
    rw [haccount] at h
    cases h
    exact ⟨account, rfl, rfl, rfl⟩
  | error failure =>
    rw [haccount] at h
    cases h

/-- Where reading fails, what is cached stays. -/
theorem sequence_of_resync_error {address : String} {failure : Chain.Failure}
    (h : s.resync Ledger.client address = (.error failure, s')) : s'.sequence = s.sequence := by
  simp only [Shared.resync, Sequence.resync, Ledger.client] at h
  cases haccount : s.chain.account address with
  | ok account =>
    rw [haccount] at h
    cases h
  | error failure =>
    rw [haccount] at h
    cases h
    rfl

/-- The sequence comes from the cache, or else from the account. -/
theorem of_current {address : String} {answer : Except Chain.Failure Snapshot}
    (h : s.current Ledger.client address = (answer, s')) :
    (∃ snapshot, s.sequence = some snapshot ∧ answer = .ok snapshot ∧ s' = s) ∨
      s.sequence = none ∧ s.resync Ledger.client address = (answer, s') := by
  cases hcache : s.sequence with
  | some snapshot =>
    simp only [Shared.current, Sequence.current, hcache] at h
    cases h
    refine .inl ⟨snapshot, rfl, rfl, ?_⟩
    rw [← hcache]
  | none =>
    simp only [Shared.current, Sequence.current, hcache] at h
    refine .inr ⟨rfl, ?_⟩
    rw [Shared.resync, hcache]
    exact h

/-! ### One loop -/

namespace Loop

/-- The transaction that the loop is about to broadcast bears the numbers that are cached no more, or the loop
is over. -/
def Spent : Loop → Prop
  | .submitting ⟨_, .signed _⟩ => True
  | .over => True
  | _ => False

/-- What the loop has numbered or signed has its numbers from where `P` says. -/
def Numbered (P : Snapshot → Prop) : Loop → Prop
  | .submitting ⟨_, .numbered snapshot⟩ => P snapshot
  | .submitting ⟨_, .signed tx⟩ => P tx.numbers
  | _ => True

/-- All numbers that the loop can use are from where `P` says. -/
structure Renewed (P : Snapshot → Prop) (l : Loop) (s : Shared Ledger σ π) : Prop where
  cached : ∀ snapshot, s.sequence = some snapshot → P snapshot ∨ l.Spent
  numbered : l.Numbered P

variable {P Q : Snapshot → Prop} {cancelled closed : Bool} {l l' : Loop}

theorem Renewed.mono (h : Renewed P l s) (hpq : ∀ snapshot, P snapshot → Q snapshot) : Renewed Q l s where
  cached snapshot hs := (h.cached snapshot hs).imp_left (hpq snapshot)
  numbered := by
    have hnumbered := h.numbered
    unfold Numbered at hnumbered ⊢
    split
    · exact hpq _ hnumbered
    · exact hpq _ hnumbered
    · trivial

/-- A loop without a submission in hand goes on without one, and with the same cache. -/
theorem Renewed.keep (h : Renewed P l s) (hspent : ¬ l.Spent) (hsequence : s'.sequence = s.sequence)
    (hnumbered : l'.Numbered P) : Renewed P l' s' where
  cached snapshot hs := .inl ((h.cached snapshot (hsequence ▸ hs)).resolve_right hspent)
  numbered := hnumbered

/-- A step of a submission: as long as nothing is broadcast, its numbers are from where `P` says, and then those of
the transaction are. -/
theorem Renewed.submission {x x' : Submission} (h : Renewed P (.submitting x) s)
    (hx : Submission.Change b Ledger.client x s x' s')
    (hread : ∀ account, s.chain.account b.signer.address = .ok account →
      s'.sequence = some (.ofAccount account) → P (.ofAccount account)) :
    s'.chain.broadcasts = s.chain.broadcasts ∧ Renewed P (.submitting x') s' ∨
      ∃ tx, s'.chain.broadcasts = s.chain.broadcasts ++ [tx] ∧ P tx.numbers := by
  obtain ⟨v, stage⟩ := x
  cases hx with
  | @numbered snapshot s' hs hcurrent =>
    obtain rfl : stage = .begun := hs
    refine .inl ⟨congrArg Ledger.broadcasts (chain_current hcurrent), ?_⟩
    have hknown : P snapshot ∧ s'.sequence = some snapshot := by
      rcases of_current hcurrent with ⟨cached, hcached, hanswer, rfl⟩ | ⟨-, hresync⟩
      · cases hanswer
        exact ⟨(h.cached snapshot hcached).resolve_right id, hcached⟩
      · obtain ⟨account, haccount, rfl, hcached⟩ := of_resync hresync
        exact ⟨hread account haccount hcached, hcached⟩
    refine ⟨fun cached hcached => .inl ?_, hknown.1⟩
    rw [hknown.2] at hcached
    exact Option.some.inj hcached ▸ hknown.1
  | unnumbered hs hcurrent =>
    obtain rfl : stage = .begun := hs
    refine .inl ⟨congrArg Ledger.broadcasts (chain_current hcurrent), h.keep id ?_ trivial⟩
    rcases of_current hcurrent with ⟨cached, -, hanswer, -⟩ | ⟨-, hresync⟩
    · cases hanswer
    · exact sequence_of_resync_error hresync
  | @signed snapshot tx hs ht =>
    obtain rfl : stage = .numbered snapshot := hs
    refine .inl ⟨rfl, fun _ _ => .inr trivial, ?_⟩
    have hnumbers : tx.numbers = snapshot := by
      rw [SignedTransaction.numbers, (sign_eq_ok ht).1]
      rfl
    exact hnumbers ▸ h.numbered
  | @unsigned snapshot failure hs ht =>
    obtain rfl : stage = .numbered snapshot := hs
    exact .inl ⟨rfl, h.keep id rfl trivial⟩
  | @broadcast tx answer s' hs hb =>
    obtain rfl : stage = .signed tx := hs
    refine .inr ⟨tx, ?_, h.numbered⟩
    rw [← broadcasts_broadcast (b := b), hb]
  | @told answer outcome hs ho =>
    obtain rfl : stage = .answered answer := hs
    refine .inl ⟨rfl, h.keep id rfl ?_⟩
    cases hsuccess : outcome.isSuccess <;> simp only [Bool.false_eq_true, if_true, if_false] <;> trivial
  | @resynced outcome snapshot s' hs hresync =>
    refine .inl ⟨congrArg Ledger.broadcasts (chain_resync hresync), fun cached hcached => .inl ?_, trivial⟩
    obtain ⟨account, haccount, -, hrenewed⟩ := of_resync hresync
    rw [hrenewed] at hcached
    exact Option.some.inj hcached ▸ hread account haccount hrenewed
  | @unsynced outcome failure s' hs hresync =>
    obtain rfl : stage = .told outcome := hs
    exact .inl ⟨congrArg Ledger.broadcasts (chain_resync hresync),
      h.keep id (sequence_of_resync_error hresync) trivial⟩
  | @complained outcome failure hs =>
    obtain rfl : stage = .unsynced outcome failure := hs
    exact .inl ⟨rfl, h.keep id rfl trivial⟩

/-- A step of a loop. -/
theorem Change.renewed (hl : Change b Ledger.client cancelled closed l s l' s') (h : Renewed P l s)
    (hread : ∀ account, s.chain.account b.signer.address = .ok account →
      s'.sequence = some (.ofAccount account) → P (.ofAccount account)) :
    s'.chain.broadcasts = s.chain.broadcasts ∧ Renewed P l' s' ∨
      ∃ tx, s'.chain.broadcasts = s.chain.broadcasts ++ [tx] ∧ P tx.numbers := by
  cases hl with
  | declined hl hs => exact .inl ⟨rfl, h.keep (by rw [hl]; exact id) rfl trivial⟩
  | admitted hl hs => exact .inl ⟨rfl, h.keep (by rw [hl]; exact id) rfl trivial⟩
  | leased hl hc => exact .inl ⟨rfl, h.keep (by rw [hl]; exact id) rfl trivial⟩
  | dismissed hl hc => exact .inl ⟨rfl, h.keep (by rcases hl with rfl | rfl <;> exact id) rfl trivial⟩
  | finished hl hc hq => exact .inl ⟨rfl, h.keep (by rw [hl]; exact id) rfl trivial⟩
  | took hl hc hq => exact .inl ⟨rfl, h.keep (by rw [hl]; exact id) rfl trivial⟩
  | @submitted x outcome hl hx =>
    refine .inl ⟨rfl, h.keep ?_ rfl trivial⟩
    obtain ⟨v, stage⟩ := x
    cases stage with
    | «over» outcome => rw [hl]; exact id
    | _ => cases hx
  | advanced hl hx =>
    subst hl
    exact h.submission hx hread

/-- Transactions that were broadcast stay on the ledger. -/
theorem Change.broadcasts_prefix (hl : Change b Ledger.client cancelled closed l s l' s') :
    s.chain.broadcasts <+: s'.chain.broadcasts := by
  have hrenewed : Renewed (fun _ => True) l s :=
    ⟨fun _ _ => .inl trivial, by unfold Numbered; split <;> trivial⟩
  rcases hl.renewed hrenewed fun _ _ _ => trivial with ⟨hsame, -⟩ | ⟨tx, hnew, -⟩
  · exact hsame ▸ List.prefix_refl _
  · rw [hnew]
    exact List.prefix_append _ _

/-- The loop has no submission in hand unless it took one from the queue since `base`; and as long as it has not asked
for the sequence of the first one, none is cached. -/
structure Unasked (base : List Verification) (l : Loop) (s : Shared Ledger σ π) : Prop where
  taken : base <+: s.outbound.history
  waiting : s.outbound.history = base → s.sequence = none ∧ l.submission? = none
  begun : ∀ v, s.outbound.history = base ++ [v] → ∀ x, l.submission? = some x → x.stage = .begun → s.sequence = none

/-- A loop that has no submission in hand goes on without one. -/
theorem Unasked.keep {base : List Verification} (h : Unasked base l s) (hnone : l'.submission? = none)
    (hhistory : s'.outbound.history = s.outbound.history) (hsequence : s'.sequence = s.sequence) :
    Unasked base l' s' where
  taken := hhistory ▸ h.taken
  waiting hs := ⟨hsequence.trans (h.waiting (hhistory ▸ hs)).1, hnone⟩
  begun v _ x hx := by rw [hnone] at hx; cases hx

/-- A submission on its way is not one that begins. -/
theorem stage_ne_begun {x x' : Submission} (hx : Submission.Change b Ledger.client x s x' s') : x'.stage ≠ .begun := by
  cases hx with
  | @told answer outcome hs ho => cases hsuccess : outcome.isSuccess <;> simp
  | _ => exact nofun

theorem Change.unasked {base : List Verification} (hl : Change b Ledger.client cancelled closed l s l' s')
    (h : Unasked base l s) : Unasked base l' s' := by
  cases hl with
  | declined hl hs => exact h.keep rfl rfl rfl
  | admitted hl hs => exact h.keep rfl rfl rfl
  | leased hl hc => exact h.keep rfl rfl rfl
  | dismissed hl hc => exact h.keep rfl rfl rfl
  | finished hl hc hq => exact h.keep rfl rfl rfl
  | submitted hl hx => exact h.keep rfl rfl rfl
  | @took v outbound hl hc hq =>
    have hhistory : outbound.history = s.outbound.history ++ [v] := (Queue.of_next? hq).2.2
    refine ⟨?_, fun hs => ?_, fun w hs x hx hbegun => ?_⟩
    · rw [hhistory]
      exact h.taken.trans (List.prefix_append _ _)
    · -- something was taken
      have hlength := h.taken.length_le
      rw [← hs, hhistory, List.length_append, List.length_singleton] at hlength
      exact absurd hlength (Nat.not_succ_le_self _)
    · rw [hhistory] at hs
      exact (h.waiting (List.append_inj' hs rfl).1).1
  | @advanced x x' s' hl hx =>
    have hhistory : s'.outbound.history = s.outbound.history := congrArg Queue.history hx.outbound
    refine ⟨hhistory ▸ h.taken, fun hs => ?_, fun v _ y hy hbegun => ?_⟩
    · have hnone := (h.waiting (hhistory ▸ hs)).2
      rw [hl] at hnone
      cases hnone
    · obtain rfl := Option.some.inj hy
      exact absurd hbegun (stage_ne_begun hx)

end Loop

end Submission

/-! ### The loop of a run -/

namespace Service

open Submission (Loop)
open Submission.Loop (Renewed Unasked)

variable {S : Service Ledger σ ρ π} {e e' : Engine Ledger σ ρ π} {m : Move}

/-- What can come next for the loop of the run and for what it uses, where there is no other loop. -/
inductive LoopTurn (S : Service Ledger σ ρ π) (e : Engine Ledger σ ρ π) : Option Move → Engine Ledger σ ρ π → Prop where
  | kept {m : Option Move} {e' : Engine Ledger σ ρ π} (hloop : loopOf e' .submitter = loopOf e .submitter)
      (hcalm : Calm e.shared e'.shared) (hsequence : e'.shared.sequence = e.shared.sequence) : LoopTurn S e m e'
  | moved {e' : Engine Ledger σ ρ π} {run l'} (hr : e.lifecycle.run? = some run)
      (hl' : loopOf e' .submitter = some l')
      (hc : Loop.Change S.submitter Ledger.client run.cancelled false run.loop e.shared l' e'.shared) :
      LoopTurn S e (some .submitter) e'
  /-- A run begins or ends, or its loop is aborted. -/
  | turned {m : Option Move} {e' : Engine Ledger σ ρ π} (hrunning : ∀ id, e.standing ≠ .running id)
      (hloop : ∀ l, loopOf e' .submitter = some l → l = .called ∨ l = .over)
      (hbroadcasts : e'.shared.chain.broadcasts = e.shared.chain.broadcasts)
      (hhistory : e'.shared.outbound.history = e.shared.outbound.history)
      (hsequence : e'.shared.sequence = none ∨
        e'.shared.sequence = e.shared.sequence ∧ loopOf e' .submitter = some .over) : LoopTurn S e m e'

theorem LoopTurn.mapRun {f : Run ρ → Run ρ} (hlifecycle : e'.lifecycle = e.lifecycle.mapRun f)
    (hf : ∀ run, (f run).loop = run.loop) (hcalm : Calm e.shared e'.shared)
    (hsequence : e'.shared.sequence = e.shared.sequence) : LoopTurn S e (some m) e' :=
  .kept (by rw [loopOf, hlifecycle]; exact Lifecycle.loop_mapRun _ hf) hcalm hsequence

theorem LoopTurn.streamEnded (e : Engine Ledger σ ρ π) (id : Nat) (r : Report) :
    LoopTurn S e (some m) (endStream e id r) :=
  .mapRun (lifecycle_endStream ..) (fun _ => rfl) (by rw [shared_endStream]; exact .refl _)
    (by rw [shared_endStream])

/-- The events of a replay are looked up. -/
theorem LoopTurn.lookedUp (hc : S.collaborators.chain = Ledger.client) {hash : String}
    {answer : Except Error (List Contract.Event)} {shared : Shared Ledger σ π}
    (hs : S.eventsOf hash e.shared = (answer, shared)) (replays : List Routing.Agenda) :
    LoopTurn S e (some m) { e with shared, replays } := by
  have hcalm := (Calm.respected hc).eventsOf hash e.shared
  have hadds := (Adds.respected S.collaborators).eventsOf hash e.shared
  rw [hs] at hcalm hadds
  exact .kept rfl hcalm hadds.sequence

/-- A move does one of these things. -/
theorem loop_turn (hc : S.collaborators.chain = Ledger.client) (hextras : e.extras = [])
    (hunloaded : e.standing.run? = none → e.shared.sequence = none) (h : Change S e m e') :
    LoopTurn S e (some m) e' := by
  have hclosing : ∀ {run joining deadline next}, e.lifecycle = .closing run joining deadline next →
      ∀ id, e.standing ≠ .running id := by
    intro run joining deadline next hl id hid
    rw [Engine.standing, hl] at hid
    cases hid
  cases h with
  | still => exact .kept rfl (.refl _) rfl
  | streamMoved hr ht hx hs =>
    exact .mapRun rfl (fun _ => rfl) ((Calm.respected hc).stream hs) ((Adds.respected _).stream hs).sequence
  | streamExited hr ht hx => exact .streamEnded ..
  | streamCrashed hr ht hx hs => exact .streamEnded ..
  | @loopMoved run loop shared hr hl =>
    refine .moved hr ?_ (hc ▸ Submission.Loop.step_change hl)
    rw [loopOf, Lifecycle.run?_mapRun, hr]
    rfl
  | deliveryMoved hr hd => exact .mapRun rfl (fun _ => rfl) ⟨rfl, rfl, rfl⟩ rfl
  | streamJoined hl hj => exact .kept (by rw [loopOf, loopOf, hl]; rfl) (.refl _) rfl
  | loopJoined hl hj => exact .kept (by rw [loopOf, loopOf, hl]; rfl) (.refl _) rfl
  | @deliveryJoined run deadline next hl hj =>
    cases next with
    | stop =>
      have hnone : loopOf (finish e .stop) .submitter = none := rfl
      exact .turned (hclosing hl) (fun l hl' => by rw [hnone] at hl'; cases hl') rfl rfl (.inl rfl)
    | start height => exact .turned (hclosing hl) (fun l hl' => .inl (Option.some.inj hl').symm) rfl rfl (.inl rfl)
  | @aborted run joining deadline next hl hj hd =>
    cases joining with
    | stream => exact .streamEnded e run.id .lost
    | submitter =>
      have hover : loopOf (abort e run .submitter) .submitter = some .over := by
        rw [loopOf, abort, Lifecycle.run?_mapRun, hl]
        rfl
      refine .turned (hclosing hl) (fun l hl' => .inr ?_) ?_ ?_ (.inr ⟨?_, hover⟩)
      · rw [hover] at hl'
        exact (Option.some.inj hl').symm
      all_goals rw [abort, Submission.Loop.abort_eq]
    | delivery => exact .mapRun rfl (fun _ => rfl) (.refl _) rfl
  | @spawned m height hl hm =>
    have hnone : e.standing.run? = none := by rcases hl with hl | hl <;> rw [Engine.standing, hl] <;> rfl
    refine .turned (fun id hid => ?_) (fun l hl' => .inl (Option.some.inj hl').symm) rfl rfl (.inl (hunloaded hnone))
    rw [hid] at hnone
    cases hnone
  | replaced hl hf => exact .kept (by rw [loopOf, loopOf, hl]; rfl) (.refl _) rfl
  | restarted hl => exact .kept (by rw [loopOf, loopOf, hl]; rfl) (.refl _) rfl
  | stopped hl => exact .kept (by rw [loopOf, loopOf, hl]; rfl) (.refl _) rfl
  | replayFailed hs => exact .lookedUp hc hs e.replays
  | replayBegun hs => exact .lookedUp hc hs _
  | replayMoved hi ha => exact .kept rfl ((Calm.respected hc).agenda ha) ((Adds.respected _).agenda ha).sequence
  | replayCrashed hi ha => exact .kept rfl (.refl _) rfl
  | extraMoved hi hl =>
    rw [hextras] at hi
    cases hi
  | ticked => exact .kept rfl (.refl _) rfl
  | published => exact .kept rfl (.publish _ _) rfl
  | called => exact .kept rfl (.refl _) rfl
  | dismissed => exact .kept rfl (.refl _) rfl

/-- All numbers that the loop of the run can use are from where `P` says. -/
def RunRenewed (P : Snapshot → Prop) (e : Engine Ledger σ ρ π) : Prop :=
  ∀ l, loopOf e .submitter = some l → Renewed P l e.shared

theorem RunRenewed.mono {P Q : Snapshot → Prop} (h : RunRenewed P e) (hpq : ∀ snapshot, P snapshot → Q snapshot) :
    RunRenewed Q e :=
  fun l hl => (h l hl).mono hpq

/-- What comes next for the loop: as long as nothing is broadcast, its numbers are from where `P` says, and then those of
the transaction are. -/
theorem LoopTurn.renewed {move : Option Move} {P : Snapshot → Prop} (h : LoopTurn S e move e') (hbefore : RunRenewed P e)
    (hread : move = some .submitter → ∀ account, e.shared.chain.account S.submitter.signer.address = .ok account →
      e'.shared.sequence = some (.ofAccount account) → P (.ofAccount account)) :
    e'.shared.chain.broadcasts = e.shared.chain.broadcasts ∧ RunRenewed P e' ∨
      ∃ tx, e'.shared.chain.broadcasts = e.shared.chain.broadcasts ++ [tx] ∧ P tx.numbers := by
  cases h with
  | kept hloop hcalm hsequence =>
    refine .inl ⟨hcalm.broadcasts, fun l hl => ?_⟩
    have hloopBefore := hbefore l (hloop ▸ hl)
    exact ⟨fun snapshot hcached => hloopBefore.cached snapshot (hsequence ▸ hcached), hloopBefore.numbered⟩
  | @moved _ run l' hr hl' hchange =>
    refine (hchange.renewed (hbefore run.loop (by rw [loopOf, hr]; rfl)) (hread rfl)).imp_left ?_
    rintro ⟨hkept, hafter⟩
    refine ⟨hkept, fun l hl => ?_⟩
    rw [hl'] at hl
    obtain rfl := Option.some.inj hl
    exact hafter
  | turned hrunning hloop hbroadcasts hhistory hsequence =>
    refine .inl ⟨hbroadcasts, fun l hl => ⟨fun snapshot hcached => ?_, by rcases hloop l hl with rfl | rfl <;> trivial⟩⟩
    rcases hsequence with hnone | ⟨-, hover⟩
    · rw [hcached] at hnone
      cases hnone
    · rw [hover] at hl
      obtain rfl := Option.some.inj hl
      exact .inr trivial

theorem LoopTurn.broadcasts_prefix {move : Option Move} (h : LoopTurn S e move e') :
    e.shared.chain.broadcasts <+: e'.shared.chain.broadcasts := by
  cases h with
  | kept hloop hcalm hsequence => exact hcalm.broadcasts ▸ List.prefix_refl _
  | moved hr hl' hchange => exact hchange.broadcasts_prefix
  | turned hrunning hloop hbroadcasts hhistory hsequence => exact hbroadcasts ▸ List.prefix_refl _

/-- While a run goes on, only a turn of its loop brings that on or takes from the queue. -/
theorem LoopTurn.kept_of_running {move : Option Move} (h : LoopTurn S e move e') (hmove : move ≠ some .submitter)
    {run : Run ρ} (hl : e.lifecycle = .running run) :
    loopOf e' .submitter = loopOf e .submitter ∧ e'.shared.outbound.history = e.shared.outbound.history := by
  cases h with
  | kept hloop hcalm hsequence => exact ⟨hloop, hcalm.history⟩
  | moved hr hl' hchange => exact absurd rfl hmove
  | turned hrunning => exact absurd (by rw [Engine.standing, hl]; rfl) (hrunning run.id)

/-- Since `base`, the loop of the run has not asked for a sequence before that of the first verification it took. -/
structure RunUnasked (base : List Verification) (e : Engine Ledger σ ρ π) : Prop where
  taken : base <+: e.shared.outbound.history
  unloaded : e.shared.outbound.history = base → e.shared.sequence = none
  loop : ∀ l, loopOf e .submitter = some l → Unasked base l e.shared

theorem LoopTurn.unasked {move : Option Move} {base : List Verification} (h : LoopTurn S e move e')
    (hbefore : RunUnasked base e) : RunUnasked base e' := by
  cases h with
  | kept hloop hcalm hsequence =>
    have htaken : base <+: e'.shared.outbound.history := hcalm.history ▸ hbefore.taken
    refine ⟨htaken, fun hsame => hsequence.trans (hbefore.unloaded (hcalm.history ▸ hsame)), fun l hl => ?_⟩
    have hloopBefore := hbefore.loop l (hloop ▸ hl)
    exact
      { taken := htaken
        waiting := fun hsame => (hloopBefore.waiting (hcalm.history ▸ hsame)).imp_left hsequence.trans
        begun := fun v hone x hx hbegun => hsequence.trans (hloopBefore.begun v (hcalm.history ▸ hone) x hx hbegun) }
  | @moved _ run l' hr hl' hchange =>
    have hafter := hchange.unasked (hbefore.loop run.loop (by rw [loopOf, hr]; rfl))
    refine ⟨hafter.taken, fun hsame => (hafter.waiting hsame).1, fun l hl => ?_⟩
    rw [hl'] at hl
    obtain rfl := Option.some.inj hl
    exact hafter
  | turned hrunning hloop hbroadcasts hhistory hsequence =>
    have htaken : base <+: e'.shared.outbound.history := hhistory ▸ hbefore.taken
    have hnone : e'.shared.outbound.history = base → e'.shared.sequence = none := fun hsame =>
      hsequence.elim id fun hkept => hkept.1.trans (hbefore.unloaded (hhistory ▸ hsame))
    refine ⟨htaken, hnone, fun l hl => ?_⟩
    have hempty : l.submission? = none := by rcases hloop l hl with rfl | rfl <;> rfl
    exact ⟨htaken, fun hsame => ⟨hnone hsame, hempty⟩, fun v _ x hx => by rw [hempty] at hx; cases hx⟩

/-- A loop that is about to number a submission asks for the account if nothing is cached. -/
theorem apply_asks (hc : S.collaborators.chain = Ledger.client) {v : Verification}
    (hloop : loopOf e .submitter = some (.submitting (.begin v))) (hsequence : e.shared.sequence = none) :
    loopOf (S.apply e .submitter) .submitter = some (.submitting ⟨v,
      match e.shared.chain.account S.submitter.signer.address with
      | .ok account => .numbered (.ofAccount account)
      | .error failure => .answered (.error (.chain failure))⟩) := by
  obtain ⟨run, hr, hl⟩ := Option.map_eq_some_iff.mp hloop
  have hstep : S.submitterStep e = some
      { e with
        shared := (Submission.step S.submitter Ledger.client (.begin v) e.shared).2
        lifecycle := e.lifecycle.mapRun fun run =>
          { run with loop := .submitting (Submission.step S.submitter Ledger.client (.begin v) e.shared).1 } } := by
    simp only [submitterStep, hr, hl, hc, Loop.step, Submission.begin, Submission.outcome?, Option.bind_eq_bind,
      Option.bind_some, Progress.next?]
    rfl
  rw [apply, hstep, Option.getD_some, loopOf, Lifecycle.run?_mapRun, hr]
  simp only [Option.map_some, Submission.step, Submission.begin, Shared.current, Sequence.current, hsequence,
    Sequence.resync, Ledger.client]
  cases e.shared.chain.account S.submitter.signer.address with
  | ok account => rfl
  | error failure => rfl

end Service

end Attestor
