import Attestor.Chain.Client

/-!
Account sequences. Transactions of an account are numbered; the next number is cached here, so that
transactions that follow each other are signed without asking the chain each time. It is advanced as soon as a
transaction is signed, before the chain has seen it, and read again from the chain after a failure.
-/

namespace Attestor.Sequence

/-- What the next transaction is signed with. -/
structure Snapshot where
  accountNumber : UInt64
  sequence : UInt64
  deriving DecidableEq, Repr

/-- What an account says. -/
def Snapshot.ofAccount (a : Chain.Account) : Snapshot := ⟨a.accountNumber, a.sequence⟩

/-- The cached values, if any. -/
abbrev Cache := Option Snapshot

/-- Advances the cached sequence by one. -/
def Cache.increment (c : Cache) : Cache :=
  c.map fun s => { s with sequence := s.sequence + 1 }

variable {χ : Type}

/-- Replaces the cached values by those on the chain. If asking fails they stay. -/
def resync (client : Chain.Client χ) (address : String) (chain : χ) (cache : Cache) :
    Except Chain.Failure Snapshot × χ × Cache :=
  match client.account address chain with
  | (.ok account, chain) => (.ok (.ofAccount account), chain, some (.ofAccount account))
  | (.error failure, chain) => (.error failure, chain, cache)

/-- The cached values; they are read from the chain if there are none. -/
def current (client : Chain.Client χ) (address : String) (chain : χ) (cache : Cache) :
    Except Chain.Failure Snapshot × χ × Cache :=
  match cache with
  | some snapshot => (.ok snapshot, chain, cache)
  | none => resync client address chain cache

end Attestor.Sequence
