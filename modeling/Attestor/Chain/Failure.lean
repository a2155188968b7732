/-!
Why a question to the chain, or a broadcast, failed.
-/

namespace Attestor.Chain

/-- A failure reported by a chain client. -/
inductive Failure where
  /-- The node could not be reached. -/
  | transport (reason : String)
  /-- What was asked for is not on the chain. -/
  | notFound (what : String)
  /-- The node was reached, but the query failed. -/
  | query (reason : String)
  /-- An answer could not be decoded. -/
  | decode (reason : String)
  /-- A transaction could not be encoded. -/
  | encode (reason : String)
  deriving DecidableEq, Repr

namespace Failure

/-- The failure in words. -/
def message : Failure → String
  | .transport reason => s!"Transport error: {reason}"
  | .notFound what => s!"Not found: {what}"
  | .query reason => s!"Query failed: {reason}"
  | .decode reason => s!"Decoding failed: {reason}"
  | .encode reason => s!"Encoding failed: {reason}"

/-- What was asked for is absent, rather than out of reach. -/
def isNotFound : Failure → Bool
  | .notFound _ => true
  | _ => false

end Failure

end Attestor.Chain
