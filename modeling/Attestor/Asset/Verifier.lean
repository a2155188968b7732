import Attestor.Callback
import Attestor.Contract.Verification

/-!
The business side of a verification: retrieving an asset and deciding about it. The engine asks for both and
takes whatever comes, a panic included. One verifier has a fixed outcome.
-/

namespace Attestor

/-- An asset as it was retrieved. -/
structure Asset where
  scopeAddress : String
  assetType : String
  payload : Json

namespace Asset

open Contract (ScopeRecord Decision)

/-- What retrieves assets and decides about them, with state `π`. -/
structure Verifier (π : Type) where
  retrieve : ScopeRecord → π → Answer (Except Fault Asset) × π
  verify : ScopeRecord → Asset → π → Answer (Except Fault Decision) × π

/-! ### A fixed outcome -/

/-- A verifier's outcome, fixed in advance, and how many decisions were asked of it. -/
structure Fixed where
  /-- Retrieving fails for this reason. -/
  retrieval : Option String
  outcome : Except String Decision
  calls : Nat

namespace Fixed

/-- Every asset is retrieved and gets this decision. -/
def deciding (decision : Decision) : Fixed := ⟨none, .ok decision, 0⟩

/-- Every asset passes. -/
def approving : Fixed := deciding (.approve "Asset verified")

/-- No asset passes. -/
def denying (message : String) : Fixed := deciding (.deny message)

/-- No asset can be retrieved. -/
def failingRetrieval (reason : String) : Fixed := { approving with retrieval := some reason }

/-- No asset can be decided about. -/
def failingVerification (reason : String) : Fixed := { approving with outcome := .error reason }

/-- The payload of an asset names it. -/
def asset (scope : ScopeRecord) : Asset :=
  ⟨scope.scopeAddress, scope.assetType, .obj [("asset_uuid", .str scope.assetUuid)]⟩

/-- The verifier with the fixed outcome. -/
def verifier : Verifier Fixed where
  retrieve scope f :=
    match f.retrieval with
    | some reason => (.value (.error (.ofCause reason)), f)
    | none => (.value (.ok (asset scope)), f)
  verify _ _ f := (.value (f.outcome.mapError .ofCause), { f with calls := f.calls + 1 })

end Fixed

end Asset

end Attestor
