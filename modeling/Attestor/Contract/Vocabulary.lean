import Attestor.Json.Decoder

/-!
The words of the contract: the type of its events, the keys of their attributes, the kinds of events, and
the states of an asset's onboarding.
-/

namespace Attestor.Contract

/-- The type of the events that contracts emit. -/
def eventType : String := "wasm"

/-! ### Attribute keys -/

/-- An attribute key of the contract. -/
inductive Key where
  | contractAddress
  | eventType
  | assetType
  | scopeAddress
  | verifierAddress
  | scopeOwnerAddress
  | newValue
  | additionalMetadata
  deriving DecidableEq, Repr

namespace Key

/-- All keys. -/
def all : List Key :=
  [.contractAddress, .eventType, .assetType, .scopeAddress, .verifierAddress, .scopeOwnerAddress,
    .newValue, .additionalMetadata]

/-- The key as the contract writes it. -/
def text : Key → String
  | .contractAddress => "_contract_address"
  | .eventType => "asset_event_type"
  | .assetType => "asset_type"
  | .scopeAddress => "asset_scope_address"
  | .verifierAddress => "asset_verifier_address"
  | .scopeOwnerAddress => "asset_scope_owner_address"
  | .newValue => "asset_new_value"
  | .additionalMetadata => "asset_additional_metadata"

/-- The key that is written so. -/
def ofText? (s : String) : Option Key :=
  all.find? fun k => k.text == s

/-- The text is a key of the contract. -/
def isKey (s : String) : Bool :=
  (ofText? s).isSome

@[simp] theorem ofText?_text (k : Key) : ofText? k.text = some k := by
  cases k <;> decide

end Key

/-! ### Event kinds -/

/-- What an event of the contract is about. -/
inductive EventKind where
  | onboardAsset
  | verifyAsset
  | addAssetDefinition
  | updateAssetDefinition
  | deleteAssetDefinition
  | toggleAssetDefinition
  | addAssetVerifier
  | updateAssetVerifier
  | updateAccessRoutes
  | bindContractAlias
  | instantiateContract
  | migrateContract
  deriving DecidableEq, Repr

namespace EventKind

/-- All kinds. -/
def all : List EventKind :=
  [.onboardAsset, .verifyAsset, .addAssetDefinition, .updateAssetDefinition, .deleteAssetDefinition,
    .toggleAssetDefinition, .addAssetVerifier, .updateAssetVerifier, .updateAccessRoutes,
    .bindContractAlias, .instantiateContract, .migrateContract]

/-- The kind as the contract writes it. -/
def name : EventKind → String
  | .onboardAsset => "onboard_asset"
  | .verifyAsset => "verify_asset"
  | .addAssetDefinition => "add_asset_definition"
  | .updateAssetDefinition => "update_asset_definition"
  | .deleteAssetDefinition => "delete_asset_definition"
  | .toggleAssetDefinition => "toggle_asset_definition"
  | .addAssetVerifier => "add_asset_verifier"
  | .updateAssetVerifier => "update_asset_verifier"
  | .updateAccessRoutes => "update_access_routes"
  | .bindContractAlias => "bind_contract_alias"
  | .instantiateContract => "instantiate_contract"
  | .migrateContract => "migrate_contract"

/-- The kind that is written so. -/
def ofName? (s : String) : Option EventKind :=
  all.find? fun k => k.name == s

@[simp] theorem ofName?_name (k : EventKind) : ofName? k.name = some k := by
  cases k <;> decide

/-- What is said of a name that is no kind. -/
def unknownMessage (name : String) : String :=
  s!"Unknown contract event type: {name}"

end EventKind

instance : Wire EventKind where
  toJson k := .str k.name
  decode := Json.decodeName EventKind.ofName?

/-! ### Onboarding states -/

/-- How far the onboarding of an asset has come. -/
inductive Status where
  /-- No verifier has decided yet. -/
  | pending
  /-- The verifier turned the asset down. -/
  | denied
  /-- The verifier accepted the asset. -/
  | approved
  deriving DecidableEq, Repr

namespace Status

/-- The state as the contract writes it. -/
def name : Status → String
  | .pending => "pending"
  | .denied => "denied"
  | .approved => "approved"

/-- The state that is written so. -/
def ofName? (s : String) : Option Status :=
  if s = "pending" then some .pending
  else if s = "denied" then some .denied
  else if s = "approved" then some .approved
  else none

@[simp] theorem ofName?_name (s : Status) : ofName? s.name = some s := by
  cases s <;> decide

/-- What is said of a name that is no state. -/
def unknownMessage (name : String) : String :=
  s!"Unknown onboarding status: {name}"

end Status

instance : Wire Status where
  toJson s := .str s.name
  decode := Json.decodeName Status.ofName?

end Attestor.Contract
