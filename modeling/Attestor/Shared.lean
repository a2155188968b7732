import Attestor.Asset.Verifier
import Attestor.Chain.Client
import Attestor.Diagnostic
import Attestor.Queue
import Attestor.Sequence
import Attestor.Stream.Source

/-!
What the tasks of an engine share: the collaborators outside the engine, each a record of behaviour with a
state of its own, the queue of verifications that wait to be submitted, the queue of diagnostics, and the
cached account sequence.
-/

namespace Attestor

/-- The collaborators of an engine: a chain client with state `χ`, a block source with state `σ` whose feeds
have state `ρ`, and an asset verifier with state `π`. -/
structure Collaborators (χ σ ρ π : Type) where
  chain : Chain.Client χ
  source : Stream.Source σ ρ
  assets : Asset.Verifier π

/-- The state that tasks share. -/
structure Shared (χ σ π : Type) where
  chain : χ
  source : σ
  assets : π
  outbound : Queue Contract.Verification
  diagnostics : Queue Diagnostic
  sequence : Sequence.Cache
  /-- A consumer loop of the submitter is running. -/
  submitting : Bool

namespace Shared

variable {χ σ π : Type}

/-- Empty queues, and no sequence cached. -/
def initial (chain : χ) (source : σ) (assets : π) : Shared χ σ π :=
  ⟨chain, source, assets, .empty, .empty, none, false⟩

/-- Publishes a diagnostic. -/
def publish (s : Shared χ σ π) (d : Diagnostic) : Shared χ σ π :=
  { s with diagnostics := s.diagnostics.publish d }

/-- Queues a verification for submission. -/
def enqueue (s : Shared χ σ π) (v : Contract.Verification) : Shared χ σ π :=
  { s with outbound := s.outbound.publish v }

/-- Reads the sequence of an account again. -/
def resync (client : Chain.Client χ) (address : String) (s : Shared χ σ π) :
    Except Chain.Failure Sequence.Snapshot × Shared χ σ π :=
  let (answer, chain, sequence) := Sequence.resync client address s.chain s.sequence
  (answer, { s with chain, sequence })

/-- The sequence of an account, from the cache if it is there. -/
def current (client : Chain.Client χ) (address : String) (s : Shared χ σ π) :
    Except Chain.Failure Sequence.Snapshot × Shared χ σ π :=
  let (answer, chain, sequence) := Sequence.current client address s.chain s.sequence
  (answer, { s with chain, sequence })

/-- Advances the cached sequence. -/
def increment (s : Shared χ σ π) : Shared χ σ π :=
  { s with sequence := s.sequence.increment }

/-- Forgets the cached sequence. -/
def reset (s : Shared χ σ π) : Shared χ σ π :=
  { s with sequence := none }

/-! ### What stays as it is -/

section

variable (s : Shared χ σ π) (client : Chain.Client χ) (address : String) (d : Diagnostic)

@[simp] theorem outbound_publish : (s.publish d).outbound = s.outbound := rfl

@[simp] theorem outbound_resync : (s.resync client address).2.outbound = s.outbound := rfl

@[simp] theorem submitting_resync : (s.resync client address).2.submitting = s.submitting := rfl

@[simp] theorem outbound_current : (s.current client address).2.outbound = s.outbound := rfl

@[simp] theorem submitting_current : (s.current client address).2.submitting = s.submitting := rfl

@[simp] theorem diagnostics_resync : (s.resync client address).2.diagnostics = s.diagnostics := rfl

@[simp] theorem diagnostics_current : (s.current client address).2.diagnostics = s.diagnostics := rfl

@[simp] theorem chain_increment : s.increment.chain = s.chain := rfl

end

end Shared

end Attestor
