import Attestor.Chain.Failure
import Attestor.Settings.Error
import Attestor.Signing.Signer
import Attestor.Stream.Exit

/-!
Errors that the engine gives to its callers.
-/

namespace Attestor

/-- What an engine cannot be assembled without. -/
inductive Component where
  | blockSource
  | chainClient
  | signer
  | assetVerifier
  deriving DecidableEq, Repr

/-- The component in words. -/
def Component.name : Component → String
  | .blockSource => "block source"
  | .chainClient => "chain client"
  | .signer => "signer"
  | .assetVerifier => "asset verifier"

/-- An error of the engine. -/
inductive Error where
  /-- The settings are refused. -/
  | settings (cause : Settings.Error)
  /-- A query or a broadcast failed. -/
  | chain (cause : Chain.Failure)
  /-- Signing failed. -/
  | signing (cause : Signing.Failure)
  /-- The block stream failed. -/
  | stream (cause : Stream.Failure)
  /-- The alias of the contract has no address. -/
  | unresolved (name : String) (cause : Chain.Failure)
  /-- The engine lacks a component. -/
  | missing (component : Component)
  deriving DecidableEq, Repr

namespace Error

/-- The error in words. Errors in settings and of the stream speak for themselves. -/
def message : Error → String
  | .settings cause => cause.message
  | .chain cause => s!"Chain error: {cause.message}"
  | .signing cause => s!"Signing error: {cause.message}"
  | .stream cause => cause.message
  | .unresolved name cause => s!"Contract alias {name} could not be resolved: {cause.message}"
  | .missing component => s!"Missing component: {component.name}"

/-- The cause behind the error in words, where the error does not speak for it. -/
def source : Error → Option String
  | .chain cause => some cause.message
  | .signing cause => some cause.message
  | .unresolved _ cause => some cause.message
  | .settings _ => none
  | .stream _ => none
  | .missing _ => none

end Error

end Attestor
