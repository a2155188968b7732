import Attestor.Proofs.Exchanges
import Attestor.Proofs.Outcomes

/-!
One submission, whatever comes of it. The client may be any; its calls are recorded beside it, and it answers as it does
without a record. A submission asks for the account if nothing is cached, signs, and broadcasts what was signed; if that
was no success it asks for the account again. Its steps are followed up to its answer (`attempt_cases`), and then to its
end. `submit_course` puts together what this means for the calls, the cache and what is told, for every combination of
answers.
-/

namespace Attestor

open Contract (Verification)
open Sequence (Snapshot Cache)
open Submission (Outcome)

variable {χ σ π : Type}

/-! ### Records -/

namespace Chain

/-- An account query or a broadcast, with the answer. -/
inductive Call where
  | account (address : String) (answer : Except Failure Account)
  | broadcast (tx : SignedTransaction) (mode : BroadcastMode) (answer : Except Failure Receipt)

def Call.isBroadcast : Call → Bool
  | .account .. => false
  | .broadcast .. => true

namespace Client

/-- Lets the client answer, and records what comes of it. -/
def noting {α : Type} (f : χ → α × χ) (note : α → List Call) (c : χ × List Call) : α × χ × List Call :=
  let (answer, chain) := f c.1
  (answer, chain, c.2 ++ note answer)

/-- The client with the record of its calls. -/
def recording (client : Client χ) : Client (χ × List Call) where
  resolveAlias name := noting (client.resolveAlias name) fun _ => []
  scopeRecord contract scope := noting (client.scopeRecord contract scope) fun _ => []
  account address := noting (client.account address) fun answer => [.account address answer]
  broadcast tx mode := noting (client.broadcast tx mode) fun answer => [.broadcast tx mode answer]
  events hash := noting (client.events hash) fun _ => []

theorem recording_seen (client : Client χ) : Seen Prod.fst client.recording client :=
  ⟨fun _ _ => rfl, fun _ _ _ => rfl⟩

end Client

end Chain

open Chain (Client SignedTransaction Receipt Call)

namespace Shared

/-- The shared state with an empty record. -/
def recording (s : Shared χ σ π) : Shared (χ × List Call) σ π :=
  s.mapChain fun chain => (chain, [])

/-- The calls on record. -/
def calls (s : Shared (χ × List Call) σ π) : List Call :=
  s.chain.2

end Shared

/-! ### The steps of a submission -/

namespace Submitter

variable (b : Submitter) (client : Client χ) (v : Verification) (s : Shared χ σ π)

/-- The shared state once the outcome is told. -/
def tell : Shared χ σ π :=
  (b.attempt client v s).2.publish (.submission v (b.outcome client v s).told)

variable {b client v s}

theorem submit_of_success (h : (b.outcome client v s).isSuccess = true) :
    b.submit client v s = (b.outcome client v s, b.tell client v s) :=
  congrArg (Prod.mk _) (if_pos h)

theorem submit_of_failure (h : (b.outcome client v s).isSuccess = false) :
    b.submit client v s = (b.outcome client v s, b.recover client v (b.tell client v s)) :=
  congrArg (Prod.mk _) (if_neg (Bool.eq_false_iff.mp h))

end Submitter

namespace Submission

variable (b : Submitter) (client : Client χ) (v : Verification) (s : Shared χ σ π)

theorem run_add (m n : Nat) (x : Submission) : run b client (m + n) x s =
    run b client n (run b client m x s).1 (run b client m x s).2 := by
  induction m generalizing x s with
  | zero => rw [Nat.zero_add]; rfl
  | succ m ih => rw [Nat.succ_add]; exact ih _ _

/-- A submission comes to its answer as signing and broadcasting do. -/
theorem run_answered : ∃ steps, run b client steps (.begin v) s =
    (⟨v, .answered (b.attempt client v s).1⟩, (b.attempt client v s).2) := by
  unfold Submitter.attempt
  cases hs : s.current client b.signer.address with
  | mk found s' =>
    cases found with
    | error failure => exact ⟨1, by simp [run, step, begin, hs]⟩
    | ok snapshot =>
      cases ht : b.sign v snapshot with
      | error failure => exact ⟨2, by simp [run, step, begin, hs, ht]⟩
      | ok tx => exact ⟨3, by simp [run, step, begin, hs, ht]⟩

/-- Then the outcome is told. If it is no success, the sequence has still to be read again. -/
theorem run_told : ∃ steps, run b client steps (.begin v) s =
    (⟨v, if (b.outcome client v s).isSuccess then .over (b.outcome client v s) else .told (b.outcome client v s)⟩,
      b.tell client v s) := by
  obtain ⟨steps, hsteps⟩ := run_answered b client v s
  refine ⟨steps + 1, ?_⟩
  rw [run_add, hsteps]
  rfl

/-- A submission comes to its end as submitting does. -/
theorem run_over : ∃ steps, run b client steps (.begin v) s =
    (⟨v, .over (b.submit client v s).1⟩, (b.submit client v s).2) := by
  obtain ⟨steps, hsteps⟩ := run_told b client v s
  by_cases h : (b.outcome client v s).isSuccess = true
  · rw [if_pos h] at hsteps
    exact ⟨steps, by rw [hsteps, Submitter.submit_of_success h]⟩
  · rw [if_neg h] at hsteps
    refine ⟨steps + 2, ?_⟩
    rw [run_add, hsteps, Submitter.submit_of_failure (Bool.eq_false_iff.mpr h)]
    unfold Submitter.recover
    cases hs : (b.tell client v s).resync client b.signer.address with
    | mk found s' => cases found <;> simp [run, step, hs]

end Submission

/-- At some time the submission of a verification stands at this stage, and the shared state is this. -/
def Submitter.Comes (b : Submitter) (client : Client χ) (v : Verification) (s : Shared χ σ π) (stage : Submission.Stage)
    (s' : Shared (χ × List Call) σ π) : Prop :=
  ∃ steps, Submission.run b client.recording steps (.begin v) s.recording = (⟨v, stage⟩, s')

/-! ### What comes of signing and broadcasting -/

/-- The numbers of a submission are cached, or the client tells them when it is asked for the account. -/
inductive Sequence.Loads (client : Client χ) (address : String) (s : Shared χ σ π) : List Call → Snapshot → Prop where
  | cached {snapshot} (hs : s.sequence = some snapshot) : Loads client address s [] snapshot
  | asked {account} (hs : s.sequence = none) (hq : (client.account address s.chain).1 = .ok account) :
      Loads client address s [.account address (.ok account)] (.ofAccount account)

open Sequence (Loads)

theorem Sequence.Loads.unique {client : Client χ} {address : String} {s : Shared χ σ π} {calls calls' : List Call}
    {snapshot snapshot' : Snapshot} (h : Loads client address s calls snapshot)
    (h' : Loads client address s calls' snapshot') : calls = calls' ∧ snapshot = snapshot' := by
  cases h with
  | cached hs =>
    cases h' with
    | cached hs' => exact ⟨rfl, Option.some.inj (hs.symm.trans hs')⟩
    | asked hs' _ => cases hs.symm.trans hs'
  | asked hs hq =>
    cases h' with
    | cached hs' => cases hs.symm.trans hs'
    | asked _ hq' =>
      obtain rfl := Except.ok.inj (hq.symm.trans hq')
      exact ⟨rfl, rfl⟩

theorem Sequence.Loads.filter_eq_nil {client : Client χ} {address : String} {s : Shared χ σ π} {calls : List Call}
    {snapshot : Snapshot} (h : Loads client address s calls snapshot) : calls.filter Call.isBroadcast = [] := by
  cases h <;> rfl

/-- The numbers after these. -/
def Sequence.Snapshot.next (snapshot : Snapshot) : Snapshot :=
  ⟨snapshot.accountNumber, snapshot.sequence + 1⟩

/-- How signing and broadcasting end, and how they leave the shared state. -/
inductive Submitter.Attempt (b : Submitter) (client : Client χ) (v : Verification) (s : Shared χ σ π) :
    Except Error Receipt → Shared (χ × List Call) σ π → Prop where
  | unnumbered {failure s'} (hs : ∀ calls snapshot, ¬ Loads client b.signer.address s calls snapshot)
      (hcalls : s'.calls = [.account b.signer.address (.error failure)]) (hcache : s'.sequence = none) :
      Attempt b client v s (.error (.chain failure)) s'
  | unsigned {calls snapshot failure s'} (hs : Loads client b.signer.address s calls snapshot)
      (ht : b.sign v snapshot = .error failure) (hcalls : s'.calls = calls) (hcache : s'.sequence = some snapshot) :
      Attempt b client v s (.error (.signing failure)) s'
  | sent {calls snapshot tx answer before s'} (hs : Loads client b.signer.address s calls snapshot)
      (ht : b.sign v snapshot = .ok tx)
      (hcomes : b.Comes client v s (.signed tx) before)
      (hbefore : before.calls = calls ∧ before.sequence = some snapshot.next)
      (hcalls : s'.calls = calls ++ [.broadcast tx b.mode answer]) (hcache : s'.sequence = some snapshot.next) :
      Attempt b client v s (answer.mapError .chain) s'

section

variable (b : Submitter) (client : Client χ) (v : Verification)

/-- Reading the sequence again is one account query. The cache becomes what the account says, if it says anything. -/
theorem Shared.resync_cases (s : Shared (χ × List Call) σ π) (address : String) :
    ∃ answer s', s.resync client.recording address = (answer.map Snapshot.ofAccount, s') ∧
      (client.account address s.chain.1).1 = answer ∧ s'.calls = s.calls ++ [.account address answer] ∧
      s'.sequence = (match answer with | .ok account => some (.ofAccount account) | .error _ => s.sequence) := by
  cases hq : client.account address s.chain.1 with
  | mk answer chain =>
    refine ⟨answer, (s.resync client.recording address).2, ?_, rfl, ?_, ?_⟩ <;>
      cases answer <;> simp [resync, Sequence.resync, Client.recording, Client.noting, calls, Except.map, hq]

/-- The numbers are found, or asking for the account fails. -/
theorem Shared.current_cases (s : Shared χ σ π) (address : String) :
    (∃ failure s', s.recording.current client.recording address = (.error failure, s') ∧
      (∀ calls snapshot, ¬ Loads client address s calls snapshot) ∧
      s'.calls = [.account address (.error failure)] ∧ s'.sequence = none) ∨
    ∃ calls snapshot s', s.recording.current client.recording address = (.ok snapshot, s') ∧
      Loads client address s calls snapshot ∧ s'.calls = calls ∧ s'.sequence = some snapshot := by
  cases hs : s.sequence with
  | some snapshot =>
    exact .inr ⟨[], snapshot, s.recording, by simp [current, Sequence.current, recording, mapChain, hs], .cached hs,
      rfl, hs⟩
  | none =>
    have hcurrent : s.recording.current client.recording address = s.recording.resync client.recording address := by
      simp [current, Sequence.current, resync, recording, mapChain, hs]
    obtain ⟨answer, s', hresync, hq, hcalls, hcache⟩ := s.recording.resync_cases client address
    rw [hcurrent, hresync]
    cases answer with
    | error failure =>
      refine .inl ⟨failure, s', rfl, fun calls snapshot hloads => ?_, hcalls, hcache.trans hs⟩
      cases hloads with
      | cached hs' => cases hs.symm.trans hs'
      | asked _ hq' => cases hq.symm.trans hq'
    | ok account => exact .inr ⟨_, _, s', rfl, .asked hs hq, hcalls, hcache⟩

/-- Broadcasting is one call, and leaves the cache as it is. -/
theorem Submitter.broadcast_cases (s : Shared (χ × List Call) σ π) (tx : SignedTransaction) :
    ∃ answer s', b.broadcast client.recording tx s = (answer.mapError .chain, s') ∧
      s'.calls = s.calls ++ [.broadcast tx b.mode answer] ∧ s'.sequence = s.sequence := by
  cases hb : client.broadcast tx b.mode s.chain.1 with
  | mk answer chain =>
    refine ⟨answer, (b.broadcast client.recording tx s).2, ?_, ?_, ?_⟩ <;>
      cases answer <;> simp [broadcast, Client.recording, Client.noting, Shared.calls, Except.mapError, hb]

/-- Signing and broadcasting end in one of three ways. -/
theorem Submitter.attempt_cases (s : Shared χ σ π) :
    b.Attempt client v s (b.attempt client.recording v s.recording).1
      (b.attempt client.recording v s.recording).2 := by
  unfold attempt
  obtain ⟨failure, s', hcurrent, hnone, hcalls, hcache⟩ | ⟨calls, snapshot, s', hcurrent, hloads, hcalls, hcache⟩ :=
    s.current_cases client b.signer.address
  · rw [hcurrent]
    exact .unnumbered hnone hcalls hcache
  · rw [hcurrent]
    cases ht : b.sign v snapshot with
    | error failure => simpa only [ht] using Attempt.unsigned hloads ht hcalls hcache
    | ok tx =>
      have hnext : s'.increment.sequence = some snapshot.next := congrArg Cache.increment hcache
      have hsteps : Submission.run b client.recording 2 (.begin v) s.recording = (⟨v, .signed tx⟩, s'.increment) := by
        simp [Submission.run, Submission.step, Submission.begin, hcurrent, ht]
      obtain ⟨answer, s'', hb, hcalls', hcache'⟩ := b.broadcast_cases client s'.increment tx
      simp only [ht, hb]
      refine .sent hloads ht ⟨2, hsteps⟩ ⟨hcalls, hnext⟩ ?_ (hcache'.trans hnext)
      rw [hcalls', ← hcalls]
      rfl

end

/-! ### One submission -/

namespace Submitter

/-- How a submission has left the calls and the cache when its outcome is told. -/
structure Left (b : Submitter) (client : Client χ) (v : Verification) (s : Shared χ σ π)
    (s' : Shared (χ × List Call) σ π) : Prop where
  /-- The sequence is advanced by one if the transaction is signed, whatever becomes of it. -/
  signed : ∀ {calls snapshot tx}, Loads client b.signer.address s calls snapshot → b.sign v snapshot = .ok tx →
    (∃ answer, s'.calls = calls ++ [.broadcast tx b.mode answer]) ∧
      s'.sequence = some ⟨snapshot.accountNumber, snapshot.sequence + 1⟩
  unsigned : ∀ {calls snapshot failure}, Loads client b.signer.address s calls snapshot →
    b.sign v snapshot = .error failure → s'.calls = calls ∧ s'.sequence = some snapshot
  unnumbered : (∀ calls snapshot, ¬ Loads client b.signer.address s calls snapshot) →
    (∃ failure, s'.calls = [.account b.signer.address (.error failure)]) ∧ s'.sequence = none

/-- What is signed is the transaction of the verification with these numbers, the signature covers what it says, and the
cache is advanced before it is broadcast. -/
structure Sent (b : Submitter) (client : Client χ) (v : Verification) (s : Shared χ σ π) (calls : List Call)
    (snapshot : Snapshot) (tx : SignedTransaction) : Prop where
  body : tx.body = b.transaction v snapshot
  accountNumber : tx.body.accountNumber = snapshot.accountNumber
  sequence : tx.body.sequence = snapshot.sequence
  signature : b.signer.sign tx.body.signBytes = .ok tx.signature
  advanced : ∃ before, b.Comes client v s (.signed tx) before ∧ before.calls = calls ∧
    before.sequence = some ⟨snapshot.accountNumber, snapshot.sequence + 1⟩

/-- The account is queried once. The cache becomes what the account says; if it says nothing that is told, and the cache
stays. -/
structure Recovered (b : Submitter) (v : Verification) (before s' : Shared (χ × List Call) σ π)
    (answer : Except Chain.Failure Chain.Account) : Prop where
  calls : s'.calls = before.calls ++ [.account b.signer.address answer]
  synced : ∀ account, answer = .ok account → s'.sequence = some ⟨account.accountNumber, account.sequence⟩ ∧
    s'.diagnostics.log = before.diagnostics.log
  unsynced : ∀ failure, answer = .error failure → s'.sequence = before.sequence ∧
    s'.diagnostics.log = before.diagnostics.log ++ [.submission v (.resyncFailed failure.message)]

end Submitter

/-- The outcome that the answer to a broadcast decides. -/
def Submission.Outcome.ofAnswer : Except Chain.Failure Receipt → Outcome
  | .ok receipt => if receipt.code = 0 then .succeeded receipt else .rejected receipt
  | .error failure => .threw (Error.chain failure).message

theorem Submission.Outcome.ofAttempt_mapError (answer : Except Chain.Failure Receipt) :
    ofAttempt (answer.mapError Error.chain) = .ofAnswer answer := by
  cases answer <;> simp [Except.mapError, ofAttempt, ofAnswer, Chain.Receipt.accepted]

namespace Submitter

/-- How submitting a verification goes and ends: its outcome, and the shared state with all calls on record. -/
structure Course (b : Submitter) (client : Client χ) (v : Verification) (s : Shared χ σ π) (outcome : Outcome)
    (s' : Shared (χ × List Call) σ π) : Prop where
  /-- The record makes no difference. -/
  seen : b.submit client v s = (outcome, s'.mapChain Prod.fst)
  /-- The steps of a submission end so too. -/
  stepped : b.Comes client v s (.over outcome) s'
  /-- What is numbered and signed is broadcast, once, and the answer decides the outcome. -/
  sent : ∀ {calls snapshot tx}, Loads client b.signer.address s calls snapshot → b.sign v snapshot = .ok tx →
    b.Sent client v s calls snapshot tx ∧
      ∃ answer, s'.calls.filter Call.isBroadcast = [.broadcast tx b.mode answer] ∧ outcome = .ofAnswer answer
  /-- Nothing else is. -/
  unsent : (∀ calls snapshot tx, Loads client b.signer.address s calls snapshot → b.sign v snapshot ≠ .ok tx) →
    s'.calls.filter Call.isBroadcast = [] ∧ ∃ error, outcome = .threw error
  /-- After a success nothing is asked, and nothing more is told. -/
  succeeded : outcome.isSuccess = true → b.Left client v s s' ∧
    s'.diagnostics.log = s.diagnostics.log ++ [.submission v outcome.told] ∧
    ∃ calls tx receipt, s'.calls = calls ++ [.broadcast tx b.mode (.ok receipt)] ∧ outcome = .succeeded receipt
  /-- After anything else the sequence is read again. -/
  recovered : outcome.isSuccess = false → ∃ before answer, b.Comes client v s (.told outcome) before ∧
    b.Left client v s before ∧ before.diagnostics.log = s.diagnostics.log ++ [.submission v outcome.told] ∧
    b.Recovered v before s' answer

section

variable {b : Submitter} {client : Client χ} {v : Verification} {s : Shared χ σ π}

theorem Attempt.left {answer : Except Error Receipt} {s' : Shared (χ × List Call) σ π}
    (h : b.Attempt client v s answer s') : b.Left client v s s' := by
  cases h with
  | unnumbered hs hcalls hcache =>
    exact ⟨fun hloads => absurd hloads (hs _ _), fun hloads => absurd hloads (hs _ _), fun _ => ⟨⟨_, hcalls⟩, hcache⟩⟩
  | unsigned hs ht hcalls hcache =>
    refine ⟨fun hloads hsign => ?_, fun hloads _ => ?_, fun hnone => absurd hs (hnone _ _)⟩ <;>
      obtain ⟨rfl, rfl⟩ := hs.unique hloads
    · cases ht.symm.trans hsign
    · exact ⟨hcalls, hcache⟩
  | sent hs ht _ _ hcalls hcache =>
    refine ⟨fun hloads hsign => ?_, fun hloads hsign => ?_, fun hnone => absurd hs (hnone _ _)⟩ <;>
      obtain ⟨rfl, rfl⟩ := hs.unique hloads
    · obtain rfl := Except.ok.inj (ht.symm.trans hsign)
      exact ⟨⟨_, hcalls⟩, hcache⟩
    · cases ht.symm.trans hsign

/-- What is signed is broadcast; that decides the answer. -/
theorem Attempt.sent_of_signed {answer : Except Error Receipt} {s' : Shared (χ × List Call) σ π}
    (h : b.Attempt client v s answer s') {calls : List Call} {snapshot : Snapshot} {tx : SignedTransaction}
    (hloads : Loads client b.signer.address s calls snapshot) (hsign : b.sign v snapshot = .ok tx) :
    ∃ reply, answer = reply.mapError .chain ∧ s'.calls = calls ++ [.broadcast tx b.mode reply] ∧
      ∃ before, b.Comes client v s (.signed tx) before ∧ before.calls = calls ∧
        before.sequence = some snapshot.next := by
  cases h with
  | unnumbered hs _ _ => exact absurd hloads (hs _ _)
  | unsigned hs ht _ _ =>
    obtain ⟨rfl, rfl⟩ := hs.unique hloads
    cases ht.symm.trans hsign
  | sent hs ht hcomes hbefore hcalls hcache =>
    obtain ⟨rfl, rfl⟩ := hs.unique hloads
    obtain rfl := Except.ok.inj (ht.symm.trans hsign)
    exact ⟨_, rfl, hcalls, _, hcomes, hbefore⟩

theorem Attempt.error_of_unsigned {answer : Except Error Receipt} {s' : Shared (χ × List Call) σ π}
    (h : b.Attempt client v s answer s')
    (hnone : ∀ calls snapshot tx, Loads client b.signer.address s calls snapshot → b.sign v snapshot ≠ .ok tx) :
    s'.calls.filter Call.isBroadcast = [] ∧ ∃ e, answer = .error e := by
  cases h with
  | unnumbered hs hcalls _ => exact ⟨by rw [hcalls]; rfl, _, rfl⟩
  | unsigned hs _ hcalls _ => exact ⟨by rw [hcalls, hs.filter_eq_nil], _, rfl⟩
  | sent hs ht _ _ _ _ => exact absurd ht (hnone _ _ _ hs)

theorem Attempt.sent_of_success {answer : Except Error Receipt} {s' : Shared (χ × List Call) σ π}
    (h : b.Attempt client v s answer s') (hsuccess : (Outcome.ofAttempt answer).isSuccess = true) :
    ∃ calls tx receipt, s'.calls = calls ++ [.broadcast tx b.mode (.ok receipt)] ∧
      Outcome.ofAttempt answer = .succeeded receipt := by
  cases h with
  | unnumbered _ _ _ => cases hsuccess
  | unsigned _ _ _ _ => cases hsuccess
  | @sent calls _ tx reply _ _ _ _ _ _ hcalls _ =>
    cases reply with
    | error failure => cases hsuccess
    | ok receipt =>
      refine ⟨calls, tx, receipt, hcalls, ?_⟩
      by_cases haccepted : receipt.accepted = true
      · exact if_pos haccepted
      · rw [Except.mapError, Outcome.ofAttempt, if_neg haccepted] at hsuccess
        cases hsuccess

end

section

variable (b : Submitter) (client : Client χ) (v : Verification)

theorem recovered_recover (s : Shared (χ × List Call) σ π) :
    ∃ answer, b.Recovered v s (b.recover client.recording v s) answer := by
  have hsame := s.diagnostics_resync client.recording b.signer.address
  obtain ⟨answer, s', hresync, -, hcalls, hcache⟩ := s.resync_cases client b.signer.address
  unfold recover
  rw [hresync] at hsame ⊢
  have hlog : s'.diagnostics.log = s.diagnostics.log := congrArg Queue.log hsame
  cases answer with
  | ok account =>
    refine ⟨.ok account, hcalls, fun _ h => ?_, nofun⟩
    obtain rfl := Except.ok.inj h
    exact ⟨hcache, hlog⟩
  | error failure =>
    refine ⟨.error failure, hcalls, nofun, fun _ h => ?_⟩
    obtain rfl := Except.error.inj h
    exact ⟨hcache, congrArg (· ++ [_]) hlog⟩

/-- Reading the sequence again broadcasts nothing. -/
theorem filter_calls_submit (s : Shared (χ × List Call) σ π) :
    (b.submit client.recording v s).2.calls.filter Call.isBroadcast =
      (b.attempt client.recording v s).2.calls.filter Call.isBroadcast := by
  cases h : (b.outcome client.recording v s).isSuccess with
  | true =>
    rw [submit_of_success h]
    rfl
  | false =>
    obtain ⟨answer, hrecovered⟩ := b.recovered_recover client v (b.tell client.recording v s)
    rw [submit_of_failure h, hrecovered.calls, List.filter_append]
    exact List.append_nil _

end

/-- **One submission, every outcome.** Whatever is cached, and whatever the client and the signer answer, a verification
is submitted with at most one broadcast. It is made if the numbers are known and the signature is there, with the cache
advanced before; the outcome is told once, and only if it is no success the sequence is read again. -/
theorem submit_course (b : Submitter) (client : Client χ) (v : Verification) (s : Shared χ σ π) :
    b.Course client v s (b.submit client.recording v s.recording).1 (b.submit client.recording v s.recording).2 := by
  have hattempt := b.attempt_cases client v s
  have htold : b.Left client v s (b.tell client.recording v s.recording) :=
    ⟨hattempt.left.signed, hattempt.left.unsigned, hattempt.left.unnumbered⟩
  have hlog := congrArg Queue.log (b.diagnostics_attempt client.recording v s.recording)
  have houtcome : (b.submit client.recording v s.recording).1 = b.outcome client.recording v s.recording := rfl
  refine
    { seen := b.submit_mapChain client.recording_seen v s.recording
      stepped := Submission.run_over b client.recording v s.recording
      sent := fun {calls snapshot tx} hloads hsign => ?sent
      unsent := fun hnone => ?unsent
      succeeded := fun hsuccess => ?succeeded
      recovered := fun hfailure => ?recovered }
  case sent =>
    obtain ⟨reply, hanswer, hcalls, hbefore⟩ := hattempt.sent_of_signed hloads hsign
    obtain ⟨hbody, -, hsignature⟩ := Submission.sign_eq_ok hsign
    refine ⟨⟨hbody, by rw [hbody]; rfl, by rw [hbody]; rfl, hsignature, hbefore⟩, reply, ?_, ?_⟩
    · rw [filter_calls_submit, hcalls, List.filter_append, hloads.filter_eq_nil]
      rfl
    · rw [houtcome, outcome, hanswer]
      exact Outcome.ofAttempt_mapError reply
  case unsent =>
    obtain ⟨hfilter, e, he⟩ := hattempt.error_of_unsigned hnone
    refine ⟨by rw [filter_calls_submit, hfilter], e.message, ?_⟩
    rw [houtcome, outcome, he]
    rfl
  case succeeded =>
    rw [submit_of_success hsuccess]
    exact ⟨htold, congrArg (· ++ [_]) hlog, hattempt.sent_of_success hsuccess⟩
  case recovered =>
    obtain ⟨steps, hsteps⟩ := Submission.run_told b client.recording v s.recording
    obtain ⟨answer, hrecovered⟩ := b.recovered_recover client v (b.tell client.recording v s.recording)
    rw [houtcome] at hfailure
    rw [if_neg (Bool.eq_false_iff.mp hfailure)] at hsteps
    rw [submit_of_failure hfailure]
    exact ⟨_, answer, ⟨steps, hsteps⟩, htold, congrArg (· ++ [_]) hlog, hrecovered⟩

end Submitter

end Attestor
