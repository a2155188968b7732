import Attestor.Callback
import Attestor.Chain.Failure
import Attestor.Chain.Transaction
import Attestor.Contract.Verification

/-!
Clients of the chain: what the engine asks of the chain, and the broadcast of transactions. A client is a
record of behaviour over a state of its own.
-/

namespace Attestor.Chain

/-- A client of the chain with state `χ`. -/
structure Client (χ : Type) where
  /-- The address of the contract with an alias. -/
  resolveAlias : String → χ → Except Failure String × χ
  /-- What a contract keeps about a scope. Handlers ask for it, so the client may panic. -/
  scopeRecord : (contract scope : String) → χ → Answer (Except Failure Contract.ScopeRecord) × χ
  /-- The account with an address. -/
  account : String → χ → Except Failure Account × χ
  broadcast : SignedTransaction → BroadcastMode → χ → Except Failure Receipt × χ
  /-- The events of a past transaction. -/
  events : String → χ → Except Failure (List Event) × χ

end Attestor.Chain
