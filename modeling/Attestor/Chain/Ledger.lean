import Attestor.Chain.Client

/-!
A ledger: a chain held in memory, with scripted answers to broadcasts. A transaction that is accepted advances
the sequence of its sender's account, as a node would.
-/

namespace Attestor.Chain

/-- A scripted answer to a broadcast. -/
inductive Scripted where
  | respond (code : UInt32) (rawLog : String)
  | fail (failure : Failure)
  deriving DecidableEq, Repr

/-- A chain in memory. -/
structure Ledger where
  /-- The address under each alias. -/
  aliases : String → Option String
  /-- The record of each scope, by contract and scope. -/
  scopes : String → String → Option Contract.ScopeRecord
  accounts : String → Option Account
  /-- Account queries fail for this reason. -/
  accountFailure : Option Failure
  /-- The events of each transaction. -/
  transactions : String → Option (List Event)
  /-- The answers to the next broadcasts; a broadcast without one is accepted. -/
  script : List Scripted
  /-- Every transaction that was broadcast, accepted or not. -/
  broadcasts : List SignedTransaction

namespace Ledger

/-- Nothing on the chain. -/
def empty : Ledger where
  aliases _ := none
  scopes _ _ := none
  accounts _ := none
  accountFailure := none
  transactions _ := none
  script := []
  broadcasts := []

def bindAlias (l : Ledger) (name address : String) : Ledger :=
  { l with aliases := fun n => if n = name then some address else l.aliases n }

def setAccount (l : Ledger) (account : Account) : Ledger :=
  { l with accounts := fun a => if a = account.address then some account else l.accounts a }

/-- Makes account queries fail, or succeed again. -/
def failAccounts (l : Ledger) (failure : Option Failure) : Ledger :=
  { l with accountFailure := failure }

def putScope (l : Ledger) (contract : String) (record : Contract.ScopeRecord) : Ledger :=
  { l with
    scopes := fun c s =>
      if c = contract ∧ s = record.scopeAddress then some record else l.scopes c s }

def putTransaction (l : Ledger) (hash : String) (events : List Event) : Ledger :=
  { l with transactions := fun h => if h = hash then some events else l.transactions h }

/-- Scripts the answer to the next broadcast that has none. -/
def push (l : Ledger) (answer : Scripted) : Ledger :=
  { l with script := l.script ++ [answer] }

/-- Something that is done to a ledger from outside. -/
inductive Edit where
  | bindAlias (name address : String)
  | setAccount (account : Account)
  | failAccounts (failure : Option Failure)
  | putScope (contract : String) (record : Contract.ScopeRecord)
  | putTransaction (hash : String) (events : List Event)
  | push (answer : Scripted)

/-- The ledger after something was done to it. -/
def edit (l : Ledger) : Edit → Ledger
  | .bindAlias name address => l.bindAlias name address
  | .setAccount account => l.setAccount account
  | .failAccounts failure => l.failAccounts failure
  | .putScope contract record => l.putScope contract record
  | .putTransaction hash events => l.putTransaction hash events
  | .push answer => l.push answer

@[simp] theorem broadcasts_edit (l : Ledger) (x : Edit) : (l.edit x).broadcasts = l.broadcasts := by
  cases x <;> rfl

/-- Advances the sequence of an account, if it is there. -/
def bump (l : Ledger) (address : String) : Ledger :=
  match l.accounts address with
  | none => l
  | some account =>
    { l with
      accounts := fun a =>
        if a = address then some { account with sequence := account.sequence + 1 }
        else l.accounts a }

def resolveAlias (l : Ledger) (name : String) : Except Failure String :=
  match l.aliases name with
  | some address => .ok address
  | none => .error (.notFound s!"alias {name}")

def scopeRecord (l : Ledger) (contract scope : String) : Except Failure Contract.ScopeRecord :=
  match l.scopes contract scope with
  | some record => .ok record
  | none => .error (.notFound s!"scope attribute for {scope}")

def account (l : Ledger) (address : String) : Except Failure Account :=
  match l.accountFailure, l.accounts address with
  | some failure, _ => .error failure
  | none, some account => .ok account
  | none, none => .error (.notFound s!"account {address}")

def events (l : Ledger) (hash : String) : Except Failure (List Event) :=
  match l.transactions hash with
  | some events => .ok events
  | none => .error (.notFound s!"tx {hash}")

/-- Records a transaction and answers as scripted. -/
def broadcast (l : Ledger) (tx : SignedTransaction) : Except Failure Receipt × Ledger :=
  let recorded := { l with broadcasts := l.broadcasts ++ [tx], script := l.script.drop 1 }
  match l.script.headD (.respond 0 "") with
  | .fail failure => (.error failure, recorded)
  | .respond code rawLog =>
    (.ok ⟨tx.hash, code, rawLog, none⟩, if code = 0 then recorded.bump tx.body.sender else recorded)

@[simp] theorem broadcasts_bump (l : Ledger) (address : String) :
    (l.bump address).broadcasts = l.broadcasts := by
  unfold bump
  split <;> rfl

/-- Whatever the answer is, the transaction is recorded. -/
@[simp] theorem broadcasts_broadcast (l : Ledger) (tx : SignedTransaction) :
    (l.broadcast tx).2.broadcasts = l.broadcasts ++ [tx] := by
  unfold broadcast
  split
  · rfl
  · dsimp only
    split
    · exact broadcasts_bump _ _
    · rfl

/-- The client of a ledger. It never panics. -/
def client : Client Ledger where
  resolveAlias name l := (l.resolveAlias name, l)
  scopeRecord contract scope l := (.value (l.scopeRecord contract scope), l)
  account address l := (l.account address, l)
  broadcast tx _ l := l.broadcast tx
  events hash l := (l.events hash, l)

end Ledger

end Attestor.Chain
