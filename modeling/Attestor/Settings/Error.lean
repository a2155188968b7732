/-!
Settings that cannot be used. Each cause carries the offending values.
-/

namespace Attestor.Settings

/-- Why settings are refused. -/
inductive Error where
  /-- The base delay is neither zero nor within the bounds. -/
  | restartDelay (delay min max : Int64)
  /-- The bounds themselves make no sense. -/
  | delayBounds (min max : Int64)
  /-- The cap of the backoff lies below the base delay. -/
  | backoffCap (delay cap : Int64)
  /-- No restart mode has this name. -/
  | unknownRestartMode (name : String)
  /-- Neither an address nor an alias of the contract is given. -/
  | missingContract
  /-- A field that has to say something is blank. -/
  | blank (field : String)
  /-- A variable has a value that cannot be read. -/
  | badVariable (name value : String)
  deriving DecidableEq, Repr

/-- The refusal in words. -/
def Error.message : Error → String
  | .restartDelay delay min max =>
    s!"Restart delay {delay}ms must be 0 or within [{min}, {max}]ms"
  | .delayBounds min max => s!"Invalid restart delay bounds: min {min}ms, max {max}ms"
  | .backoffCap delay cap => s!"Maximum backoff {cap}ms is below the base delay {delay}ms"
  | .unknownRestartMode name =>
    s!"Unknown restart mode: {name} (expected off, fixed or exponential)"
  | .missingContract =>
    "Missing contract identifier: set AC_VERIFIER_CONTRACT_ADDRESS or AC_VERIFIER_CONTRACT_ALIAS"
  | .blank field => s!"{field} must not be empty"
  | .badVariable name value => s!"Invalid value for {name}: {value}"

end Attestor.Settings
