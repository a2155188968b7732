import Attestor.Proofs.Exchanges
import Attestor.Proofs.Logs

/-!
The cached sequence and the ledger. The cached sequence is advanced before the ledger sees a transaction, and the
ledger advances its own only if it accepts the transaction; so the two drift apart by one with each transaction that
is not accepted, until the ledger is asked again. That this is the whole difference is the invariant `Follows`:
it survives resets, failed queries and whatever the ledger answers. While the ledger answers its queries, a
submission that was not accepted is followed by a query, and there is no drift when the next one begins
(`Settled`).
-/

namespace Attestor.Sequence

open Chain (Account Ledger SignedTransaction Receipt)
open Contract (Verification)
open Submitter (Operation)

variable {σ π : Type}

/-! ### What a ledger does to an account -/

section

variable {l : Ledger} {address : String} {account : Account}

theorem account_eq (h : l.accounts address = some account) :
    l.account address = .ok account ∨ ∃ failure, l.account address = .error failure := by
  unfold Ledger.account
  rw [h]
  cases l.accountFailure with
  | some failure => exact .inr ⟨failure, rfl⟩
  | none => exact .inl rfl

/-- What is done to a ledger from outside leaves an account, unless the account is set. -/
theorem accounts_edit {x : Ledger.Edit} (hx : ∀ a, x = .setAccount a → a.address ≠ address) :
    (l.edit x).accounts address = l.accounts address := by
  cases x with
  | setAccount a => exact if_neg fun h => hx a rfl h.symm
  | _ => rfl

/-- A broadcast advances the sequence of its sender if it is accepted, and does not touch it otherwise. -/
theorem accounts_broadcast (h : l.accounts address = some account) {tx : SignedTransaction}
    (htx : tx.body.sender = address) :
    (l.broadcast tx).2.accounts address =
      some { account with
        sequence := account.sequence +
          .ofNat (Exchange.sent l tx (l.broadcast tx).1).isAccepted.toNat } := by
  unfold Ledger.broadcast
  cases l.script.headD (.respond 0 "") with
  | fail failure =>
    dsimp only [Exchange.isAccepted]
    rw [h]
    simp
  | respond code rawLog =>
    by_cases hcode : code = 0
    · subst hcode
      simp only [Ledger.bump, htx, h, if_true, Exchange.isAccepted, Receipt.accepted]
      rfl
    · have hrejected : (code == 0) = false := by simpa using hcode
      simp [hcode, hrejected, h, Exchange.isAccepted, Receipt.accepted]

end

/-! ### The invariant -/

/-- The account after this many transactions were accepted. -/
def advanced (start : Account) (n : Nat) : Account :=
  { start with sequence := start.sequence + .ofNat n }

theorem advanced_zero (start : Account) : advanced start 0 = start := by
  simp [advanced]

theorem advanced_add (start : Account) (n m : Nat) :
    advanced start (n + m) = { advanced start n with sequence := (advanced start n).sequence + .ofNat m } := by
  simp only [advanced, UInt64.ofNat_add, UInt64.add_assoc]

/-- Whatever is made of a transaction, it is accepted or adds to the drift. -/
theorem drifts_sent (before : Ledger) (tx : SignedTransaction) (answer : Except Chain.Failure Receipt) (n : Nat) :
    (Exchange.sent before tx answer).isAccepted.toNat + (Exchange.sent before tx answer).drifts n = n + 1 := by
  cases answer with
  | error failure => simp [Exchange.isAccepted, Exchange.drifts]
  | ok receipt =>
    simp only [Exchange.isAccepted, Exchange.drifts]
    cases receipt.accepted <;> simp [Nat.add_comm]

/-- What a transaction is signed with: the sequence that the ledger expects and the drift, which is none while
the ledger answers its queries. -/
def Signed (address : String) (start : Account) (pre : List Exchange) (x : Exchange) : Prop :=
  ∀ before tx answer, x = .sent before tx answer →
    before.accounts address = some (advanced start (accepted pre)) ∧
      tx.body.sequence = start.sequence + .ofNat (accepted pre + drift pre) ∧
      (Untroubled pre → drift pre = 0)

/-- The account on the ledger has advanced by what was accepted, and the cache is ahead of it by the drift. -/
structure Follows (base : List SignedTransaction) (address : String) (start : Account)
    (s : Shared Recorded σ π) : Prop where
  broadcasts : s.chain.ledger.broadcasts = base ++ s.chain.record.filterMap Exchange.tx?
  account : s.chain.ledger.accounts address = some (advanced start (accepted s.chain.record))
  cache : ∀ snapshot, s.sequence = some snapshot →
    snapshot = ⟨start.accountNumber,
      start.sequence + .ofNat (accepted s.chain.record + drift s.chain.record)⟩
  signed : Fitting (Signed address start) s.chain.record

/-- There is no drift while the ledger answers its queries. -/
def Settled (xs : List Exchange) : Prop := Untroubled xs → drift xs = 0

variable {base : List SignedTransaction} {address : String} {start : Account} {s : Shared Recorded σ π}

theorem resync_of_ok {account : Account} (h : s.chain.ledger.account address = .ok account) :
    s.resync Recorded.client address = (.ok (.ofAccount account),
      { s with
        chain := ⟨s.chain.ledger, s.chain.record ++ [.asked (.ok account)]⟩
        sequence := some (.ofAccount account) }) := by
  simp only [Shared.resync, Sequence.resync, Recorded.client, Recorded.via, Ledger.client, h]

theorem resync_of_error {failure : Chain.Failure} (h : s.chain.ledger.account address = .error failure) :
    s.resync Recorded.client address = (.error failure,
      { s with chain := ⟨s.chain.ledger, s.chain.record ++ [.asked (.error failure)]⟩ }) := by
  simp only [Shared.resync, Sequence.resync, Recorded.client, Recorded.via, Ledger.client, h]

/-- The ledger is asked, and the cache is filled if it answers. -/
theorem Follows.resync (h : Follows base address start s) :
    Follows base address start (s.resync Recorded.client address).2 ∧
      Settled (s.resync Recorded.client address).2.chain.record ∧
      ∀ snapshot, (s.resync Recorded.client address).1 = .ok snapshot →
        (s.resync Recorded.client address).2.sequence = some snapshot := by
  have hfitting : ∀ answer, Fitting (Signed address start) (s.chain.record ++ [.asked answer]) :=
    fun answer => h.signed.snoc fun _ _ _ hx => absurd hx Exchange.noConfusion
  have hbroadcasts : ∀ answer, s.chain.ledger.broadcasts =
      base ++ (s.chain.record ++ [Exchange.asked answer]).filterMap Exchange.tx? := fun answer => by
    rw [List.filterMap_append, h.broadcasts]
    exact (congrArg (base ++ ·) (List.append_nil _)).symm
  rcases account_eq h.account with hok | ⟨failure, herror⟩
  · rw [resync_of_ok hok]
    refine ⟨⟨hbroadcasts _, ?_, fun snapshot hsnapshot => ?_, hfitting _⟩, fun _ => ?_, fun _ hsnapshot => ?_⟩
    · simpa [Exchange.isAccepted] using h.account
    · obtain rfl := Option.some.inj hsnapshot
      simp [Snapshot.ofAccount, advanced, Exchange.isAccepted, Exchange.drifts]
    · simp [Exchange.drifts]
    · exact congrArg some (Except.ok.inj hsnapshot)
  · rw [resync_of_error herror]
    refine ⟨⟨hbroadcasts _, ?_, fun snapshot hsnapshot => ?_, hfitting _⟩, fun huntroubled => ?_,
      fun _ hsnapshot => ?_⟩
    · simpa [Exchange.isAccepted] using h.account
    · simpa [Exchange.isAccepted, Exchange.drifts] using h.cache snapshot hsnapshot
    · have htrue := huntroubled _ (List.mem_append_right _ (List.mem_singleton_self _))
      cases htrue
    · cases hsnapshot

theorem Follows.publish (h : Follows base address start s) (d : Diagnostic) :
    Follows base address start (s.publish d) :=
  ⟨h.broadcasts, h.account, h.cache, h.signed⟩

/-- The cached values, or those of the ledger. -/
theorem Follows.current (h : Follows base address start s) (hsettled : Settled s.chain.record) :
    Follows base address start (s.current Recorded.client address).2 ∧
      Settled (s.current Recorded.client address).2.chain.record ∧
      ∀ snapshot, (s.current Recorded.client address).1 = .ok snapshot →
        (s.current Recorded.client address).2.sequence = some snapshot := by
  cases hs : s.sequence with
  | some snapshot =>
    have hcurrent : s.current Recorded.client address = (.ok snapshot, s) := by
      simp only [Shared.current, Sequence.current, hs]
      rw [← hs]
    rw [hcurrent]
    refine ⟨h, hsettled, fun snapshot' hsnapshot => ?_⟩
    obtain rfl := Except.ok.inj hsnapshot
    exact hs
  | none =>
    have hcurrent : s.current Recorded.client address = s.resync Recorded.client address := by
      simp only [Shared.current, Sequence.current, Shared.resync, hs]
    rw [hcurrent]
    exact h.resync

/-- A transaction that carries the cached sequence is broadcast, after the cache was advanced. -/
theorem Follows.broadcast {b : Submitter} {snapshot : Snapshot} {tx : SignedTransaction}
    (h : Follows base b.signer.address start s) (hsettled : Settled s.chain.record)
    (hs : s.sequence = some snapshot) (hsender : tx.body.sender = b.signer.address)
    (hsequence : tx.body.sequence = snapshot.sequence) :
    Follows base b.signer.address start (b.broadcast Recorded.client tx s.increment).2 ∧
      ((Submission.Outcome.ofAttempt (b.broadcast Recorded.client tx s.increment).1).isSuccess = true →
        Settled (b.broadcast Recorded.client tx s.increment).2.chain.record) := by
  have hbroadcast : b.broadcast Recorded.client tx s.increment =
      ((s.chain.ledger.broadcast tx).1.mapError .chain,
        { s.increment with
          chain := ⟨(s.chain.ledger.broadcast tx).2,
            s.chain.record ++ [.sent s.chain.ledger tx (s.chain.ledger.broadcast tx).1]⟩ }) := by
    simp only [Submitter.broadcast, Recorded.client, Recorded.via, Ledger.client, Shared.chain_increment]
    rcases s.chain.ledger.broadcast tx with ⟨_ | _, _⟩ <;> rfl
  have haccount := accounts_broadcast h.account hsender
  have hbroadcasts := s.chain.ledger.broadcasts_broadcast tx
  have hcache := h.cache snapshot hs
  rw [hbroadcast]
  generalize s.chain.ledger.broadcast tx = answered at haccount hbroadcasts
  obtain ⟨answer, ledger⟩ := answered
  refine ⟨⟨?_, ?_, fun snapshot' hsnapshot => ?_, h.signed.snoc ?_⟩, fun hsuccess huntroubled => ?_⟩
  · rw [List.filterMap_append, ← List.append_assoc, ← h.broadcasts]
    exact hbroadcasts
  · rw [accepted_concat, advanced_add]
    exact haccount
  · simp only [Shared.increment, Cache.increment, hs, Option.map_some, Option.some.injEq] at hsnapshot
    have hsucc (n : Nat) : start.sequence + .ofNat n + 1 = start.sequence + .ofNat (n + 1) := by
      rw [UInt64.ofNat_add, ← UInt64.add_assoc]
      rfl
    rw [← hsnapshot, hcache, accepted_concat, drift_concat, Nat.add_assoc, drifts_sent, ← Nat.add_assoc, ← hsucc]
  · intro before tx' answer' hx
    cases hx
    exact ⟨h.account, by rw [hsequence, hcache], hsettled⟩
  · rw [drift_concat]
    cases answer with
    | error failure => cases hsuccess
    | ok receipt =>
      have haccepted : receipt.accepted = true := by
        cases hreceipt : receipt.accepted with
        | true => rfl
        | false =>
          have hsuccess : (Submission.Outcome.ofAttempt (.ok receipt)).isSuccess = true := hsuccess
          simp [Submission.Outcome.ofAttempt, Submission.Outcome.isSuccess, hreceipt] at hsuccess
      simp only [Exchange.drifts, haccepted, if_true]
      exact hsettled fun x hx => huntroubled x (List.mem_append_left _ hx)

/-- A submission: every transaction that it broadcasts is signed with the cached sequence, and where it was not
accepted the ledger is asked again. -/
theorem Follows.submit {b : Submitter} (h : Follows base b.signer.address start s)
    (hsettled : Settled s.chain.record) (v : Verification) :
    Follows base b.signer.address start (b.submit Recorded.client v s).2 ∧
      Settled (b.submit Recorded.client v s).2.chain.record := by
  have hattempt : Follows base b.signer.address start (b.attempt Recorded.client v s).2 ∧
      ((Submission.Outcome.ofAttempt (b.attempt Recorded.client v s).1).isSuccess = true →
        Settled (b.attempt Recorded.client v s).2.chain.record) := by
    obtain ⟨hcurrent, hsettled', hcached⟩ := h.current hsettled
    unfold Submitter.attempt
    generalize s.current Recorded.client b.signer.address = now at hcurrent hsettled' hcached
    obtain ⟨_ | snapshot, s'⟩ := now
    · exact ⟨hcurrent, nofun⟩
    · dsimp only
      cases hsign : b.sign v snapshot with
      | error failure => exact ⟨hcurrent, nofun⟩
      | ok tx =>
        obtain ⟨hbody, -, -⟩ := Submission.sign_eq_ok hsign
        exact hcurrent.broadcast hsettled' (hcached snapshot rfl) (by rw [hbody]; rfl) (by rw [hbody]; rfl)
  unfold Submitter.submit
  generalize b.attempt Recorded.client v s = attempted at hattempt
  obtain ⟨answer, s'⟩ := attempted
  obtain ⟨hfollows, hsuccess⟩ := hattempt
  dsimp only
  split
  next hs => exact ⟨hfollows.publish _, hsuccess hs⟩
  next =>
    obtain ⟨hresync, hsettled', -⟩ := (hfollows.publish (.submission v _)).resync
    unfold Submitter.recover
    split
    next heq =>
      rw [heq] at hresync hsettled'
      exact ⟨hresync, hsettled'⟩
    next heq =>
      rw [heq] at hresync hsettled'
      exact ⟨hresync.publish _, hsettled'⟩

/-- Whatever is done, as long as the account is not set. -/
theorem Follows.perform {b : Submitter} (h : Follows base b.signer.address start s)
    (hsettled : Settled s.chain.record) {op : Operation}
    (hop : ∀ a, op = .edit (.setAccount a) → a.address ≠ b.signer.address) :
    Follows base b.signer.address start (b.perform Recorded.client Recorded.edit s op) ∧
      Settled (b.perform Recorded.client Recorded.edit s op).chain.record := by
  cases op with
  | submit v => exact h.submit hsettled v
  | reset => exact ⟨⟨h.broadcasts, h.account, nofun, h.signed⟩, hsettled⟩
  | resync =>
    obtain ⟨hresync, hsettled', -⟩ := h.resync
    exact ⟨hresync, hsettled'⟩
  | edit x =>
    have haccounts : (s.chain.ledger.edit x).accounts b.signer.address =
        s.chain.ledger.accounts b.signer.address := accounts_edit fun a hx => hop a (by rw [hx])
    exact ⟨⟨(Ledger.broadcasts_edit _ x).trans h.broadcasts, haccounts.trans h.account, h.cache, h.signed⟩,
      hsettled⟩

theorem Follows.performAll {b : Submitter} (h : Follows base b.signer.address start s)
    (hsettled : Settled s.chain.record) {ops : List Operation}
    (hops : ∀ a, .edit (.setAccount a) ∈ ops → a.address ≠ b.signer.address) :
    Follows base b.signer.address start (b.performAll Recorded.client Recorded.edit s ops) := by
  induction ops generalizing s with
  | nil => exact h
  | cons op ops ih =>
    have hfirst : ∀ a, op = .edit (.setAccount a) → a.address ≠ b.signer.address := fun a ha =>
      hops a (by rw [← ha]; exact List.mem_cons_self ..)
    obtain ⟨hop, hsettled'⟩ := h.perform hsettled hfirst
    exact ih hop hsettled' fun a ha => hops a (List.mem_cons_of_mem op ha)

/-! ### In numbers -/

theorem toNat_advanced {n : Nat} (h : start.sequence.toNat + n < UInt64.size) :
    (start.sequence + .ofNat n).toNat = start.sequence.toNat + n := by
  have hn : (UInt64.ofNat n).toNat = n := UInt64.toNat_ofNat_of_lt (by omega)
  rw [UInt64.toNat_add, hn]
  exact Nat.mod_eq_of_lt h

theorem sends_mono {pre xs : List Exchange} (h : pre <+: xs) : sends pre ≤ sends xs :=
  h.sublist.countP_le

/-- Transactions of which each carries the number of those accepted before it carry consecutive numbers. -/
theorem acceptedSequences_eq {n : Nat} {xs : List Exchange}
    (h : Fitting (fun pre x => ∀ k, x.acceptedSequence? = some k → k.toNat = n + accepted pre) xs) :
    (xs.filterMap Exchange.acceptedSequence?).map UInt64.toNat = List.range' n (accepted xs) := by
  induction hlen : xs.length generalizing xs with
  | zero =>
    obtain rfl := List.eq_nil_of_length_eq_zero hlen
    rfl
  | succ m ih =>
    rcases List.eq_nil_or_concat xs with rfl | ⟨ys, x, rfl⟩
    · cases hlen
    · rw [List.concat_eq_append] at hlen h ⊢
      obtain ⟨hys, hx⟩ := h.of_concat
      have haccepted := x.isSome_acceptedSequence?
      rw [List.filterMap_append, List.map_append, ih hys (by simpa using hlen), accepted_concat, ← haccepted]
      cases hk : x.acceptedSequence? with
      | none => simp [hk]
      | some k =>
        rw [Option.isSome_some, Bool.toNat_true, List.range'_concat, Nat.one_mul, ← hx k hk]
        simp [hk]

/-- The numbers of a submitter's cache and of its transactions. -/
structure Accurate (ledger : Ledger) (address : String) (start : Account) (s : Shared Recorded σ π) :
    Prop where
  /-- The record tells of every broadcast. -/
  broadcasts : s.chain.ledger.broadcasts = ledger.broadcasts ++ s.chain.record.filterMap Exchange.tx?
  /-- A cached sequence is ahead of the ledger by the drift. -/
  cache : ∀ snapshot, s.sequence = some snapshot → ∃ account,
    s.chain.ledger.accounts address = some account ∧ snapshot.accountNumber = account.accountNumber ∧
      snapshot.sequence.toNat = account.sequence.toNat + drift s.chain.record
  /-- So was the sequence of every transaction, which is the expected one if no query had failed. -/
  signed : ∀ pre before tx answer post, s.chain.record = pre ++ .sent before tx answer :: post →
    ∃ account, before.accounts address = some account ∧
      tx.body.sequence.toNat = account.sequence.toNat + drift pre ∧
      (Untroubled pre → tx.body.sequence = account.sequence)
  /-- If no query has failed, the accepted transactions carry consecutive sequences. -/
  consecutive : Untroubled s.chain.record →
    (s.chain.record.filterMap Exchange.acceptedSequence?).map UInt64.toNat =
      List.range' start.sequence.toNat (accepted s.chain.record)

theorem Follows.accurate {ledger : Ledger} (h : Follows ledger.broadcasts address start s)
    (hfits : start.sequence.toNat + sends s.chain.record < UInt64.size) : Accurate ledger address start s where
  broadcasts := h.broadcasts
  cache snapshot hsnapshot := by
    have hle := accepted_add_drift_le s.chain.record
    refine ⟨_, h.account, by rw [h.cache snapshot hsnapshot]; rfl, ?_⟩
    rw [h.cache snapshot hsnapshot, toNat_advanced (by omega)]
    show _ = (start.sequence + .ofNat _).toNat + _
    rw [toNat_advanced (by omega), Nat.add_assoc]
  signed pre before tx answer post hrecord := by
    obtain ⟨haccount, hsequence, hdrift⟩ := h.signed pre _ post hrecord before tx answer rfl
    have hle := accepted_add_drift_le pre
    have hmono : sends pre ≤ sends s.chain.record := sends_mono ⟨_, hrecord.symm⟩
    refine ⟨_, haccount, ?_, fun huntroubled => ?_⟩
    · rw [hsequence, toNat_advanced (by omega)]
      show _ = (start.sequence + .ofNat _).toNat + _
      rw [toNat_advanced (by omega), Nat.add_assoc]
    · rw [hsequence, hdrift huntroubled]
      rfl
  consecutive huntroubled := by
    refine acceptedSequences_eq fun pre x post hrecord k hk => ?_
    obtain ⟨before, tx, answer, rfl, rfl⟩ := Exchange.of_acceptedSequence? hk
    obtain ⟨-, hsequence, hdrift⟩ := h.signed pre _ post hrecord before tx answer rfl
    have huntroubled' : Untroubled pre := fun x hx => huntroubled x (by
      rw [hrecord]
      exact List.mem_append_left _ hx)
    have hle := accepted_add_drift_le pre
    have hmono : sends pre ≤ sends s.chain.record := sends_mono ⟨_, hrecord.symm⟩
    rw [hsequence, hdrift huntroubled', Nat.add_zero, toNat_advanced (by omega)]

/-- **The cached sequence is ahead of the ledger by what was not accepted since the ledger last told it.** -/
theorem cache_ahead_by_drift {b : Submitter} {ledger : Ledger} {start : Account}
    (haccount : ledger.accounts b.signer.address = some start) (source : σ) (assets : π)
    {ops : List Operation} (hops : ∀ a, .edit (.setAccount a) ∈ ops → a.address ≠ b.signer.address)
    {s : Shared Recorded σ π}
    (hs : s = b.performAll Recorded.client Recorded.edit (.initial ⟨ledger, []⟩ source assets) ops)
    (hfits : start.sequence.toNat + sends s.chain.record < UInt64.size) :
    s.mapChain Recorded.ledger =
        b.performAll Ledger.client (fun x l => l.edit x) (.initial ledger source assets) ops ∧
      Accurate ledger b.signer.address start s := by
  subst hs
  refine ⟨b.forget_run _ ops, Follows.accurate (Follows.performAll ?_ (fun _ => rfl) hops) hfits⟩
  exact
    { broadcasts := (List.append_nil _).symm
      account := haccount.trans (congrArg some (advanced_zero start).symm)
      cache := nofun
      signed := .nil }

/-! ### A run with drift -/

namespace Sample

def submitter : Submitter :=
  ⟨.fixed "verifier" [] (.ok []), "contract", "chain", ⟨[], 1⟩, .sync⟩

def verification : Verification :=
  ⟨⟨7, "hash", .plain, .ofList []⟩, ⟨"uuid", "scope", "loan", "requestor", "verifier", .pending, none⟩,
    .approve "Asset verified"⟩

def account : Account := ⟨"verifier", 3, 5⟩

/-- The second broadcast is answered with a code. -/
def ledger : Ledger :=
  ((Ledger.empty.setAccount account).push (.respond 0 "")).push (.respond 32 "out of gas")

/-- Queries fail after the first submission. -/
def operations : List Operation :=
  [.submit verification, .edit (.failAccounts (some (.query "down"))), .submit verification, .resync]

def run : Shared Recorded Unit Unit :=
  submitter.performAll Recorded.client Recorded.edit (.initial ⟨ledger, []⟩ () ()) operations

/-- In the sample run the cache is one ahead. -/
theorem cache_one_ahead :
    run.sequence = some ⟨3, 7⟩ ∧ drift run.chain.record = 1 ∧
      Accurate ledger submitter.signer.address account run := by
  have haccount : ledger.accounts submitter.signer.address = some account := by decide
  have hops : ∀ a, .edit (.setAccount a) ∈ operations → a.address ≠ submitter.signer.address := by
    intro a ha
    simp [operations] at ha
  have hfits : account.sequence.toNat + sends run.chain.record < UInt64.size := by decide +kernel
  exact ⟨by decide +kernel, by decide +kernel, (cache_ahead_by_drift haccount () () hops rfl hfits).2⟩

end Sample

end Attestor.Sequence
