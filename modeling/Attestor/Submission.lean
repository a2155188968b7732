import Attestor.Error
import Attestor.Progress
import Attestor.Shared

/-!
Submissions: a verification becomes a transaction, which is signed with the cached sequence and broadcast. The
sequence is advanced between signing and broadcasting. If anything fails, or the chain answers with a code other
than zero, the sequence is read again from the chain.

`submit` does all of it. A `Submission` is one on its way, with one effect in each step; running it is
submitting.
-/

namespace Attestor

open Contract (Verification)

/-- What a submission needs to know. -/
structure Submitter where
  signer : Signing.Signer
  /-- The contract that executes the message. -/
  contract : String
  chainId : String
  fee : Chain.Fee
  mode : Chain.BroadcastMode

namespace Submission

/-- What became of a submission. -/
inductive Outcome where
  | succeeded (receipt : Chain.Receipt)
  /-- The chain answered with a code other than zero. -/
  | rejected (receipt : Chain.Receipt)
  | threw (error : String)
  deriving DecidableEq, Repr

namespace Outcome

/-- The outcome of an attempt. -/
def ofAttempt : Except Error Chain.Receipt → Outcome
  | .ok receipt => if receipt.accepted then .succeeded receipt else .rejected receipt
  | .error e => .threw e.message

/-- What is told of an outcome. -/
def told : Outcome → Submitted
  | .succeeded receipt => .succeeded receipt
  | .rejected receipt => .rejected receipt
  | .threw error => .threw error

def isSuccess : Outcome → Bool
  | .succeeded _ => true
  | _ => false

end Outcome

end Submission

open Submission (Outcome)

namespace Submitter

variable {χ σ π : Type}

/-- The transaction of a verification. -/
def transaction (b : Submitter) (v : Verification) (snapshot : Sequence.Snapshot) :
    Chain.Transaction where
  chainId := b.chainId
  accountNumber := snapshot.accountNumber
  sequence := snapshot.sequence
  sender := b.signer.address
  contract := b.contract
  msg := (Contract.Command.ofVerification v).toDocument
  fee := b.fee
  memo := ""

/-- Signs the transaction of a verification. -/
def sign (b : Submitter) (v : Verification) (snapshot : Sequence.Snapshot) :
    Except Signing.Failure Chain.SignedTransaction := do
  let body := b.transaction v snapshot
  return ⟨body, b.signer.publicKey, ← b.signer.sign body.signBytes⟩

/-- Broadcasts a transaction. -/
def broadcast (b : Submitter) (client : Chain.Client χ) (tx : Chain.SignedTransaction)
    (s : Shared χ σ π) : Except Error Chain.Receipt × Shared χ σ π :=
  match client.broadcast tx b.mode s.chain with
  | (.ok receipt, chain) => (.ok receipt, { s with chain })
  | (.error failure, chain) => (.error (.chain failure), { s with chain })

/-- Signs and broadcasts. -/
def attempt (b : Submitter) (client : Chain.Client χ) (v : Verification) (s : Shared χ σ π) :
    Except Error Chain.Receipt × Shared χ σ π :=
  match s.current client b.signer.address with
  | (.error failure, s) => (.error (.chain failure), s)
  | (.ok snapshot, s) =>
    match b.sign v snapshot with
    | .error failure => (.error (.signing failure), s)
    | .ok tx => b.broadcast client tx s.increment

/-- Reads the sequence again, and tells if that fails. -/
def recover (b : Submitter) (client : Chain.Client χ) (v : Verification) (s : Shared χ σ π) :
    Shared χ σ π :=
  match s.resync client b.signer.address with
  | (.ok _, s) => s
  | (.error failure, s) => s.publish (.submission v (.resyncFailed failure.message))

/-- Submits a verification. -/
def submit (b : Submitter) (client : Chain.Client χ) (v : Verification) (s : Shared χ σ π) :
    Outcome × Shared χ σ π :=
  match b.attempt client v s with
  | (answer, s) =>
    let outcome := Outcome.ofAttempt answer
    let s := s.publish (.submission v outcome.told)
    (outcome, if outcome.isSuccess then s else b.recover client v s)

/-- Submits verifications one after the other. -/
def submitAll (b : Submitter) (client : Chain.Client χ) :
    List Verification → Shared χ σ π → List Outcome × Shared χ σ π
  | [], s => ([], s)
  | v :: vs, s =>
    let (outcome, s) := b.submit client v s
    let (outcomes, s) := b.submitAll client vs s
    (outcome :: outcomes, s)

end Submitter

/-! ### Submissions on their way -/

namespace Submission

/-- Where a submission stands. -/
inductive Stage where
  | begun
  /-- The sequence is known. -/
  | numbered (snapshot : Sequence.Snapshot)
  /-- The transaction is signed, and the cached sequence advanced. -/
  | signed (tx : Chain.SignedTransaction)
  | answered (answer : Except Error Chain.Receipt)
  /-- The outcome is told; it was no success. -/
  | told (outcome : Outcome)
  /-- Reading the sequence again failed. -/
  | unsynced (outcome : Outcome) (failure : Chain.Failure)
  | over (outcome : Outcome)

end Submission

/-- A verification that is being submitted. -/
structure Submission where
  verification : Verification
  stage : Submission.Stage

namespace Submission

variable {χ σ π : Type}

/-- A submission that has not begun. -/
def begin (v : Verification) : Submission := ⟨v, .begun⟩

/-- The outcome of a submission that is over. -/
def outcome? (x : Submission) : Option Outcome :=
  match x.stage with
  | .over outcome => some outcome
  | _ => none

/-- Performs one effect. A submission that is over stays as it is. -/
def step (b : Submitter) (client : Chain.Client χ) (x : Submission) (s : Shared χ σ π) :
    Submission × Shared χ σ π :=
  match x.stage with
  | .begun =>
    match s.current client b.signer.address with
    | (.error failure, s) => ({ x with stage := .answered (.error (.chain failure)) }, s)
    | (.ok snapshot, s) => ({ x with stage := .numbered snapshot }, s)
  | .numbered snapshot =>
    match b.sign x.verification snapshot with
    | .error failure => ({ x with stage := .answered (.error (.signing failure)) }, s)
    | .ok tx => ({ x with stage := .signed tx }, s.increment)
  | .signed tx =>
    match b.broadcast client tx s with
    | (answer, s) => ({ x with stage := .answered answer }, s)
  | .answered answer =>
    let outcome := Outcome.ofAttempt answer
    ({ x with stage := if outcome.isSuccess then .over outcome else .told outcome },
      s.publish (.submission x.verification outcome.told))
  | .told outcome =>
    match s.resync client b.signer.address with
    | (.ok _, s) => ({ x with stage := .over outcome }, s)
    | (.error failure, s) => ({ x with stage := .unsynced outcome failure }, s)
  | .unsynced outcome failure =>
    ({ x with stage := .over outcome },
      s.publish (.submission x.verification (.resyncFailed failure.message)))
  | .over _ => (x, s)

/-- Performs a number of effects. -/
def run (b : Submitter) (client : Chain.Client χ) :
    (steps : Nat) → Submission → Shared χ σ π → Submission × Shared χ σ π
  | 0, x, s => (x, s)
  | steps + 1, x, s =>
    match x.step b client s with
    | (x, s) => run b client steps x s

end Submission

end Attestor
