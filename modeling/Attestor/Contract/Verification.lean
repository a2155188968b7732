import Attestor.Contract.Event

/-!
The verification of an asset: what the contract records about it, what the verifier decides, and the
message that puts the decision on the chain.
-/

namespace Attestor.Contract

open Json (record required optional)

/-- A place where a verified asset can be had, and what it is called. -/
structure Route where
  route : String
  name : Option String
  deriving DecidableEq, Repr

instance : Wire Route where
  toJson r := .obj [("route", .str r.route), ("name", Wire.toJson r.name)]
  decode depth t := do
    let (d, [route, name]) ← record ["route", "name"] depth t | none
    return { route := ← required d route, name := ← optional d name }

/-- What the contract keeps about the asset of a scope. -/
structure ScopeRecord where
  assetUuid : String
  scopeAddress : String
  assetType : String
  requestorAddress : String
  verifierAddress : String
  status : Status
  latestMessage : Option String
  deriving DecidableEq, Repr

instance : Wire ScopeRecord where
  toJson s := .obj [("asset_uuid", .str s.assetUuid), ("scope_address", .str s.scopeAddress),
    ("asset_type", .str s.assetType), ("requestor_address", .str s.requestorAddress),
    ("verifier_address", .str s.verifierAddress), ("onboarding_status", Wire.toJson s.status),
    ("latest_verification_message", Wire.toJson s.latestMessage)]
  decode depth t := do
    let (d, [uuid, scope, type, requestor, verifier, status, message]) ←
      record ["asset_uuid", "scope_address", "asset_type", "requestor_address", "verifier_address",
        "onboarding_status", "latest_verification_message"] depth t | none
    return {
      assetUuid := ← required d uuid
      scopeAddress := ← required d scope
      assetType := ← required d type
      requestorAddress := ← required d requestor
      verifierAddress := ← required d verifier
      status := ← required d status
      latestMessage := ← optional d message }

/-- What the verifier decided about an asset. -/
structure Decision where
  success : Bool
  message : Option String
  accessRoutes : List Route
  deriving DecidableEq, Repr

namespace Decision

/-- The asset passes. -/
def approve (message : String) : Decision := ⟨true, some message, []⟩

/-- The asset does not pass. -/
def deny (message : String) : Decision := ⟨false, some message, []⟩

/-- Adds routes after those that are there. -/
def withRoutes (d : Decision) (routes : List Route) : Decision :=
  { d with accessRoutes := d.accessRoutes ++ routes }

end Decision

instance : Wire Decision where
  toJson d := .obj [("success", .bool d.success), ("message", Wire.toJson d.message),
    ("access_routes", Wire.toJson d.accessRoutes)]
  decode depth t := do
    let (d, [success, message, routes]) ←
      record ["success", "message", "access_routes"] depth t | none
    return {
      success := ← required d success
      message := ← optional d message
      accessRoutes := ← required d routes }

/-- A decision that waits to be submitted, with the event that asked for it and the record of its scope
as it was before. -/
structure Verification where
  event : Event
  scope : ScopeRecord
  decision : Decision

/-- What stands in front of log lines about a verification. -/
def Verification.label (v : Verification) : String :=
  s!"[VERIFY ASSET | Tx: {v.event.txHash} | Scope: {v.scope.scopeAddress}]"

/-! ### Messages to the contract -/

/-- How a message names an asset. -/
inductive AssetIdentifier where
  | assetUuid (uuid : String)
  | scopeAddress (address : String)
  deriving DecidableEq, Repr

instance : Wire AssetIdentifier where
  toJson
    | .assetUuid uuid => .obj [("asset_uuid", .str uuid)]
    | .scopeAddress address => .obj [("scope_address", .str address)]
  decode depth t := do
    let (d, name, content) ← Json.choice depth t
    if name = "asset_uuid" then return .assetUuid (← Wire.decode d content)
    else if name = "scope_address" then return .scopeAddress (← Wire.decode d content)
    else none

/-- A message that the contract executes: the decision about an asset. -/
structure Command where
  identifier : AssetIdentifier
  assetType : String
  success : Bool
  message : Option String
  accessRoutes : List Route
  deriving DecidableEq, Repr

instance : Wire Command where
  toJson c := .obj [("verify_asset", .obj [("identifier", Wire.toJson c.identifier),
    ("asset_type", .str c.assetType), ("success", .bool c.success),
    ("message", Wire.toJson c.message), ("access_routes", Wire.toJson c.accessRoutes)])]
  decode depth t := do
    let (d, "verify_asset", content) ← Json.choice depth t | none
    let (d, [identifier, type, success, message, routes]) ←
      record ["identifier", "asset_type", "success", "message", "access_routes"] d content | none
    return {
      identifier := ← required d identifier
      assetType := ← required d type
      success := ← required d success
      message := ← optional d message
      accessRoutes := ← required d routes }

namespace Command

/-- The message of a verification: the asset is named by its scope. -/
def ofVerification (v : Verification) : Command where
  identifier := .scopeAddress v.scope.scopeAddress
  assetType := v.scope.assetType
  success := v.decision.success
  message := v.decision.message
  accessRoutes := v.decision.accessRoutes

private theorem inRange_optional (s : Option String) : Json.InRange (Wire.toJson s) = true := by
  cases s <;> rfl

private theorem inRange_routes (routes : List Route) :
    Json.ItemsInRange (routes.map Wire.toJson) = true := by
  induction routes with
  | nil => rfl
  | cons r rs ih =>
    simp only [List.map_cons, Json.ItemsInRange, ih, Bool.and_true]
    simp [Wire.toJson, Json.InRange, Json.MembersInRange]
    cases r.name <;> rfl

theorem inRange_toJson (c : Command) : Json.InRange (Wire.toJson c) = true := by
  have hi : Json.InRange (Wire.toJson c.identifier) = true := by cases c.identifier <;> rfl
  have hm := inRange_optional c.message
  have hr := inRange_routes c.accessRoutes
  simp only [Wire.toJson] at hi hm hr ⊢
  simp [Json.InRange, Json.MembersInRange, hi, hm, hr]

/-- The message as a free document, in canonical form. -/
def toDocument (c : Command) : Document :=
  Document.ofJson (Wire.toJson c) c.inRange_toJson

end Command

end Attestor.Contract
