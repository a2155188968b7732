import Attestor.Settings.Verifier

/-!
The settings of logs and traces, and how they are read from variables. Unlike the settings of a verifier,
a blank value is a value, except for the endpoint.
-/

namespace Attestor.Telemetry

/-- The settings of logs and traces. -/
structure Settings where
  serviceName : String
  /-- Where spans are sent; they are not sent where this is absent. -/
  endpoint : Option String
  logLevel : String
  consoleOutput : Bool
  jsonLogs : Bool
  network : String
  deriving DecidableEq, Repr

namespace Settings

def default : Settings where
  serviceName := "ac-verifier"
  endpoint := none
  logLevel := "info"
  consoleOutput := true
  jsonLogs := false
  network := "testnet"

/-- The service's name with the network's. -/
def fullServiceName (s : Settings) : String :=
  s!"{s.serviceName}-{s.network}"

/-- The value is the word, in any case, or the digit. The words are spelled in letters that are the lower case
of no letter outside ASCII. -/
def isWord (word digit value : String) : Bool :=
  value.toLower == word || value == digit

/-- The settings that variables describe. Logs are in JSON by default inside a container. -/
def ofLookup (lookup : Attestor.Settings.Lookup) : Settings :=
  let inContainer :=
    (lookup "KUBERNETES_SERVICE_HOST").isSome || (lookup "DOCKER_CONTAINER").isSome
  { serviceName := (lookup "OTEL_SERVICE_NAME").getD default.serviceName
    endpoint := Attestor.Settings.textOf lookup "OTEL_EXPORTER_OTLP_ENDPOINT"
    logLevel := ((lookup "AC_LOG_LEVEL").or (lookup "RUST_LOG")).getD default.logLevel
    consoleOutput := ((lookup "AC_CONSOLE_OUTPUT").map fun v => !isWord "false" "0" v).getD true
    jsonLogs := ((lookup "AC_JSON_LOGS").map (isWord "true" "1")).getD inContainer
    network := (lookup "AC_NETWORK").getD default.network }

end Settings

end Attestor.Telemetry
