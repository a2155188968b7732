import Attestor.Service.Engine

/-!
Assembling a service. The settings are checked first; then every component has to be there; then the name of
the contract is resolved. The first of these that fails decides the error.
-/

namespace Attestor.Service

/-- The parts of a service. A part may be missing. -/
structure Parts (χ σ ρ π : Type) where
  source : Option (Stream.Source σ ρ)
  chain : Option (Chain.Client χ)
  signer : Option Signing.Signer
  assets : Option (Asset.Verifier π)
  /-- Where it is missing, diagnostics are only logged and counted. -/
  consumer : Option Consumer
  registry : Handler.Registry

/-- A part, or the error that it is missing. -/
def part {α : Type} (component : Component) : Option α → Except Error α
  | some a => .ok a
  | none => .error (.missing component)

variable {χ σ ρ π : Type}

/-- The address of a contract. -/
def address (client : Chain.Client χ) (chain : χ) : ContractName → Except Error String × χ
  | .address text => (.ok text, chain)
  | .alias text =>
    match client.resolveAlias text chain with
    | (.ok found, chain) => (.ok found, chain)
    | (.error failure, chain) => (.error (.unresolved text failure), chain)

/-- A service of complete parts, for the contract at an address. -/
def ofParts (settings : Settings) (restart : Restart.Mode) (collaborators : Collaborators χ σ ρ π)
    (signer : Signing.Signer) (parts : Parts χ σ ρ π) (contract : String) : Service χ σ ρ π where
  collaborators
  driver := ⟨⟨contract, signer, parts.registry⟩, restart⟩
  submitter := ⟨signer, contract, settings.chainId, settings.fee.toFee, settings.broadcastMode⟩
  consumer := parts.consumer.getD .accepting
  shutdownTimeout := settings.shutdownTimeout.toNat

/-- The checks that come before the chain is asked. -/
def checkParts (settings : Settings) (parts : Parts χ σ ρ π) :
    Except Error (Restart.Mode × Collaborators χ σ ρ π × Signing.Signer) := do
  let restart ← settings.validate.mapError .settings
  let source ← part .blockSource parts.source
  let chain ← part .chainClient parts.chain
  let signer ← part .signer parts.signer
  let assets ← part .assetVerifier parts.assets
  return (restart, ⟨chain, source, assets⟩, signer)

/-- Assembles a service. -/
def assemble (settings : Settings) (parts : Parts χ σ ρ π) (chain : χ) :
    Except Error (Service χ σ ρ π) × χ :=
  match checkParts settings parts with
  | .error e => (.error e, chain)
  | .ok (restart, collaborators, signer) =>
    match address collaborators.chain chain settings.contract with
    | (.error e, chain) => (.error e, chain)
    | (.ok contract, chain) =>
      (.ok (ofParts settings restart collaborators signer parts contract), chain)

end Attestor.Service
