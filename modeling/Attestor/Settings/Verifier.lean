import Attestor.Chain.Transaction
import Attestor.Restart.Policy
import Attestor.Settings.Error
import Attestor.Text.Blank
import Attestor.Text.Number

/-!
The settings of a verifier, and how they are read from variables. A variable with a blank value counts as
absent. Texts are taken as they are; numbers are trimmed first. The first check that fails decides the
error, in the order in which the checks stand.
-/

namespace Attestor

/-- How the watched contract is named: by its address, or by an alias that is resolved once. -/
inductive ContractName where
  | address (text : String)
  | alias (text : String)
  deriving DecidableEq, Repr

/-- The name as given. -/
def ContractName.text : ContractName → String
  | .address text => text
  | .alias text => text

/-- What a verification pays. The amount has 128 bits. -/
structure FeeSettings where
  gasLimit : UInt64
  amount : Nat
  denom : String
  deriving DecidableEq, Repr

namespace FeeSettings

/-- The least amount that does not fit into 128 bits. -/
def amountLimit : Nat := 0x100000000000000000000000000000000

def default : FeeSettings := ⟨400000, 762000000, "nhash"⟩

/-- The amount as a coin. -/
def coin (f : FeeSettings) : Chain.Coin :=
  ⟨f.denom, String.ofList (Text.decimal f.amount)⟩

/-- The fee of a transaction: one coin. -/
def toFee (f : FeeSettings) : Chain.Fee :=
  ⟨[f.coin], f.gasLimit⟩

end FeeSettings

/-- The settings of a verifier. -/
structure Settings where
  contract : ContractName
  chainId : String
  fee : FeeSettings
  restart : Restart.Settings
  broadcastMode : Chain.BroadcastMode
  /-- Milliseconds that stopping waits for each task. -/
  shutdownTimeout : UInt64
  deriving DecidableEq, Repr

namespace Settings

def default : Settings where
  contract := .alias "assetclassificationalias.pb"
  chainId := "pio-testnet-1"
  fee := .default
  restart := .default
  broadcastMode := .async
  shutdownTimeout := 5000

/-- The variable that holds the gas limit. -/
def gasLimitVariable : String := "AC_VERIFIER_GAS_LIMIT"

/-- Checks the settings and gives the restart mode. -/
def validate (s : Settings) : Except Error Restart.Mode :=
  if Text.isBlank s.contract.text then .error .missingContract
  else if Text.isBlank s.chainId then .error (.blank "chain_id")
  else if Text.isBlank s.fee.denom then .error (.blank "fee denom")
  else if s.fee.gasLimit = 0 then .error (.badVariable gasLimitVariable "0")
  else s.restart.build

/-! ### Variables -/

/-- The value of each variable, where it is set. -/
abbrev Lookup := String → Option String

/-- The value of a variable, unless it is blank. -/
def textOf (lookup : Lookup) (name : String) : Option String :=
  (lookup name).bind Text.nonBlank

/-- The number in a variable, or a default where it is absent. A value that is no such number is reported
as it stands. -/
def numberOf {α : Type} (read : String → Option α) (lookup : Lookup) (name : String) (absent : α) :
    Except Error α :=
  match textOf lookup name with
  | none => .ok absent
  | some value =>
    match read (Text.trim value) with
    | some n => .ok n
    | none => .error (.badVariable name value)

/-- The contract: an address wins over an alias. -/
def contractOf (lookup : Lookup) : ContractName :=
  match textOf lookup "AC_VERIFIER_CONTRACT_ADDRESS", textOf lookup "AC_VERIFIER_CONTRACT_ALIAS" with
  | some address, _ => .address address
  | none, some name => .alias name
  | none, none => default.contract

/-- The restart settings that a mode names, in either case of ASCII letters. -/
def restartOf (mode : String) (delay cap : Int64) : Except Error Restart.Settings :=
  let name := mode.toLower
  if name = "off" ∨ name = "disabled" then .ok { Restart.Settings.disabled with delay }
  else if name = "fixed" then .ok (.fixed delay)
  else if name = "exponential" then .ok (.exponential delay cap)
  else .error (.unknownRestartMode mode)

/-- The settings that variables describe. -/
def ofLookup (lookup : Lookup) : Except Error Settings := do
  let mode := (textOf lookup "AC_VERIFIER_RESTART_MODE").getD "exponential"
  let delay ← numberOf Text.readInt64 lookup "AC_VERIFIER_RESTART_DELAY_MS"
    Restart.Settings.defaultDelay
  let cap ← numberOf Text.readInt64 lookup "AC_VERIFIER_RESTART_MAX_DELAY_MS"
    Restart.Settings.defaultCap
  let restart ← restartOf mode delay cap
  let gasLimit ← numberOf Text.readUInt64 lookup gasLimitVariable FeeSettings.default.gasLimit
  let amount ← numberOf (Text.readNat FeeSettings.amountLimit) lookup "AC_VERIFIER_FEE_AMOUNT"
    FeeSettings.default.amount
  let denom := (textOf lookup "AC_VERIFIER_FEE_DENOM").getD FeeSettings.default.denom
  let shutdownTimeout ← numberOf Text.readUInt64 lookup "AC_VERIFIER_SHUTDOWN_TIMEOUT_MS"
    default.shutdownTimeout
  let chainId := (textOf lookup "AC_VERIFIER_CHAIN_ID").getD default.chainId
  let settings : Settings := {
    contract := contractOf lookup
    chainId
    fee := ⟨gasLimit, amount, denom⟩
    restart
    broadcastMode := default.broadcastMode
    shutdownTimeout }
  discard settings.validate
  return settings

end Settings

end Attestor
