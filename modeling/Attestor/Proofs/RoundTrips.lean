import Attestor.Chain.Transaction
import Attestor.Contract.Verification
import Attestor.Proofs.Base64
import Attestor.Proofs.Decoding

/-!
The texts of blocks, accounts, transactions, receipts and of what the contract keeps and executes are read as what was
written.

Each of these types is written with its fields in their order. It is faithful because its fields are: `Fields.faithful`
asks only that the fields are put together as they were taken apart. `entities_roundTrip` collects what follows for
texts.
-/

namespace Attestor.Chain

open Json

/-! ### Blocks -/

instance : Faithful Attribute := by
  have written (a : Attribute) : Wire.toJson a = .obj
      [("key", Wire.toJson a.key), ("value", Wire.toJson a.value)] :=
    rfl
  refine Fields.faithful written (fun _ _ => rfl) ⟨by decide, fun _ => rfl, ?built, ?nested⟩
  case built =>
    intro a d h
    simp only [List.forall_mem_cons] at h
    simp [required_read, h]
  case nested =>
    intro a r h
    split at h
    next =>
      simp only [Option.bind_eq_bind, Option.bind_eq_some_iff, Option.pure_def, Option.some.injEq] at h
      obtain ⟨key, hkey, value, hvalue, rfl⟩ := h
      simp [nesting_of_required hkey, nesting_of_required hvalue]
    next => cases h

instance : Faithful Event := by
  have written (e : Event) : Wire.toJson e = .obj
      [("block_height", Wire.toJson e.blockHeight), ("tx_hash", Wire.toJson e.txHash),
        ("event_type", Wire.toJson e.eventType), ("attributes", Wire.toJson e.attributes)] :=
    rfl
  refine Fields.faithful written (fun _ _ => rfl) ⟨by decide, fun _ => rfl, ?built, ?nested⟩
  case built =>
    intro e d h
    simp only [List.forall_mem_cons] at h
    simp [required_read, h]
  case nested =>
    intro e r h
    split at h
    next =>
      simp only [Option.bind_eq_bind, Option.bind_eq_some_iff, Option.pure_def, Option.some.injEq] at h
      obtain ⟨height, hheight, hash, hhash, type, htype, attributes, hattributes, rfl⟩ := h
      simp [nesting_of_required hheight, nesting_of_required hhash, nesting_of_required htype,
        nesting_of_required hattributes]
    next => cases h

instance : Faithful Block := by
  have written (b : Block) : Wire.toJson b = .obj
      [("height", Wire.toJson b.height), ("events", Wire.toJson b.events)] :=
    rfl
  refine Fields.faithful written (fun _ _ => rfl) ⟨by decide, fun _ => rfl, ?built, ?nested⟩
  case built =>
    intro b d h
    simp only [List.forall_mem_cons] at h
    simp [required_read, h]
  case nested =>
    intro b r h
    split at h
    next =>
      simp only [Option.bind_eq_bind, Option.bind_eq_some_iff, Option.pure_def, Option.some.injEq] at h
      obtain ⟨height, hheight, events, hevents, rfl⟩ := h
      simp [nesting_of_required hheight, nesting_of_required hevents]
    next => cases h

/-! ### Transactions -/

instance : Faithful Account := by
  have written (a : Account) : Wire.toJson a = .obj
      [("address", Wire.toJson a.address), ("account_number", Wire.toJson a.accountNumber),
        ("sequence", Wire.toJson a.sequence)] :=
    rfl
  refine Fields.faithful written (fun _ _ => rfl) ⟨by decide, fun _ => rfl, ?built, ?nested⟩
  case built =>
    intro a d h
    simp only [List.forall_mem_cons] at h
    simp [required_read, h]
  case nested =>
    intro a r h
    split at h
    next =>
      simp only [Option.bind_eq_bind, Option.bind_eq_some_iff, Option.pure_def, Option.some.injEq] at h
      obtain ⟨address, haddress, number, hnumber, sequence, hsequence, rfl⟩ := h
      simp [nesting_of_required haddress, nesting_of_required hnumber, nesting_of_required hsequence]
    next => cases h

instance : Faithful Coin := by
  have written (c : Coin) : Wire.toJson c = .obj
      [("denom", Wire.toJson c.denom), ("amount", Wire.toJson c.amount)] :=
    rfl
  refine Fields.faithful written (fun _ _ => rfl) ⟨by decide, fun _ => rfl, ?built, ?nested⟩
  case built =>
    intro c d h
    simp only [List.forall_mem_cons] at h
    simp [required_read, h]
  case nested =>
    intro c r h
    split at h
    next =>
      simp only [Option.bind_eq_bind, Option.bind_eq_some_iff, Option.pure_def, Option.some.injEq] at h
      obtain ⟨denom, hdenom, amount, hamount, rfl⟩ := h
      simp [nesting_of_required hdenom, nesting_of_required hamount]
    next => cases h

instance : Faithful Fee := by
  have written (f : Fee) : Wire.toJson f = .obj
      [("amount", Wire.toJson f.amount), ("gas_limit", Wire.toJson f.gasLimit)] :=
    rfl
  refine Fields.faithful written (fun _ _ => rfl) ⟨by decide, fun _ => rfl, ?built, ?nested⟩
  case built =>
    intro f d h
    simp only [List.forall_mem_cons] at h
    simp [required_read, h]
  case nested =>
    intro f r h
    split at h
    next =>
      simp only [Option.bind_eq_bind, Option.bind_eq_some_iff, Option.pure_def, Option.some.injEq] at h
      obtain ⟨amount, hamount, gasLimit, hgasLimit, rfl⟩ := h
      simp [nesting_of_required hamount, nesting_of_required hgasLimit]
    next => cases h

instance : Faithful Transaction := by
  have written (t : Transaction) : Wire.toJson t = .obj
      [("chain_id", Wire.toJson t.chainId), ("account_number", Wire.toJson t.accountNumber),
        ("sequence", Wire.toJson t.sequence), ("sender", Wire.toJson t.sender), ("contract", Wire.toJson t.contract),
        ("msg", Wire.toJson t.msg), ("fee", Wire.toJson t.fee), ("memo", Wire.toJson t.memo)] :=
    rfl
  refine Fields.faithful written (fun _ _ => rfl) ⟨by decide, fun _ => rfl, ?built, ?nested⟩
  case built =>
    intro t d h
    simp only [List.forall_mem_cons] at h
    simp [required_read, h]
  case nested =>
    intro t r h
    split at h
    next =>
      simp only [Option.bind_eq_bind, Option.bind_eq_some_iff, Option.pure_def, Option.some.injEq] at h
      obtain ⟨chainId, hchainId, number, hnumber, sequence, hsequence, sender, hsender, contract, hcontract, msg,
        hmsg, fee, hfee, memo, hmemo, rfl⟩ := h
      simp [nesting_of_required hchainId, nesting_of_required hnumber, nesting_of_required hsequence,
        nesting_of_required hsender, nesting_of_required hcontract, nesting_of_required hmsg,
        nesting_of_required hfee, nesting_of_required hmemo]
    next => cases h

/-- Bytes are read as they were written. -/
theorem decodeBytes_read (bytes : List UInt8) (depth : Nat) :
    decodeBytes depth (some (read (encodeBytes bytes))) = some bytes := by
  show Text.Base64.decode .optional (String.ofList (Text.Base64.encode bytes)).toList = some bytes
  rw [String.toList_ofList, Text.Base64.decode_encode]

theorem nesting_encodeBytes (bytes : List UInt8) : nesting (encodeBytes bytes) = 0 :=
  rfl

instance : Faithful SignedTransaction := by
  have written (t : SignedTransaction) : Wire.toJson t = .obj
      [("body", Wire.toJson t.body), ("public_key", encodeBytes t.publicKey), ("signature", encodeBytes t.signature)] :=
    rfl
  refine Fields.faithful written (fun _ _ => rfl) ⟨by decide, fun _ => rfl, ?built, ?nested⟩
  case built =>
    intro t d h
    simp only [List.forall_mem_cons] at h
    simp [required_read, decodeBytes_read, h]
  case nested =>
    intro t r h
    split at h
    next =>
      simp only [Option.bind_eq_bind, Option.bind_eq_some_iff, Option.pure_def, Option.some.injEq] at h
      obtain ⟨body, hbody, publicKey, hpublicKey, signature, hsignature, rfl⟩ := h
      simp [nesting_of_required hbody, nesting_encodeBytes]
    next => cases h

instance : Faithful Receipt := by
  have written (r : Receipt) : Wire.toJson r = .obj
      [("tx_hash", Wire.toJson r.txHash), ("code", Wire.toJson r.code), ("raw_log", Wire.toJson r.rawLog),
        ("height", Wire.toJson r.height)] :=
    rfl
  refine Fields.faithful written (fun _ _ => rfl) ⟨by decide, fun _ => rfl, ?built, ?nested⟩
  case built =>
    intro r d h
    simp only [List.forall_mem_cons] at h
    simp [required_read, optional_read, h]
  case nested =>
    intro r read h
    split at h
    next =>
      simp only [Option.bind_eq_bind, Option.bind_eq_some_iff, Option.pure_def, Option.some.injEq] at h
      obtain ⟨hash, hhash, code, hcode, log, hlog, height, hheight, rfl⟩ := h
      simp [nesting_of_required hhash, nesting_of_required hcode, nesting_of_required hlog,
        nesting_of_optional hheight]
    next => cases h

end Attestor.Chain

namespace Attestor.Contract

open Json

/-! ### What the contract keeps -/

theorem decodeName_read {α : Type} {named : String → Option α} {name : String} {a : α} (h : named name = some a)
    (depth : Nat) : decodeName named depth (read (.str name)) = some a :=
  h

instance : Faithful Status where
  decode_read _ := decodeName_read (Status.ofName?_name _) _
  nesting_le _ := Nat.zero_le _

instance : Faithful Route := by
  have written (r : Route) : Wire.toJson r = .obj
      [("route", Wire.toJson r.route), ("name", Wire.toJson r.name)] :=
    rfl
  refine Fields.faithful written (fun _ _ => rfl) ⟨by decide, fun _ => rfl, ?built, ?nested⟩
  case built =>
    intro r d h
    simp only [List.forall_mem_cons] at h
    simp [required_read, optional_read, h]
  case nested =>
    intro r read h
    split at h
    next =>
      simp only [Option.bind_eq_bind, Option.bind_eq_some_iff, Option.pure_def, Option.some.injEq] at h
      obtain ⟨route, hroute, name, hname, rfl⟩ := h
      simp [nesting_of_required hroute, nesting_of_optional hname]
    next => cases h

instance : Faithful ScopeRecord := by
  have written (s : ScopeRecord) : Wire.toJson s = .obj
      [("asset_uuid", Wire.toJson s.assetUuid), ("scope_address", Wire.toJson s.scopeAddress),
        ("asset_type", Wire.toJson s.assetType), ("requestor_address", Wire.toJson s.requestorAddress),
        ("verifier_address", Wire.toJson s.verifierAddress), ("onboarding_status", Wire.toJson s.status),
        ("latest_verification_message", Wire.toJson s.latestMessage)] :=
    rfl
  refine Fields.faithful written (fun _ _ => rfl) ⟨by decide, fun _ => rfl, ?built, ?nested⟩
  case built =>
    intro s d h
    simp only [List.forall_mem_cons] at h
    simp [required_read, optional_read, h]
  case nested =>
    intro s r h
    split at h
    next =>
      simp only [Option.bind_eq_bind, Option.bind_eq_some_iff, Option.pure_def, Option.some.injEq] at h
      obtain ⟨uuid, huuid, scope, hscope, type, htype, requestor, hrequestor, verifier, hverifier, status, hstatus,
        message, hmessage, rfl⟩ := h
      simp [nesting_of_required huuid, nesting_of_required hscope, nesting_of_required htype,
        nesting_of_required hrequestor, nesting_of_required hverifier, nesting_of_required hstatus,
        nesting_of_optional hmessage]
    next => cases h

instance : Faithful Decision := by
  have written (d : Decision) : Wire.toJson d = .obj
      [("success", Wire.toJson d.success), ("message", Wire.toJson d.message),
        ("access_routes", Wire.toJson d.accessRoutes)] :=
    rfl
  refine Fields.faithful written (fun _ _ => rfl) ⟨by decide, fun _ => rfl, ?built, ?nested⟩
  case built =>
    intro d depth h
    simp only [List.forall_mem_cons] at h
    simp [required_read, optional_read, h]
  case nested =>
    intro d r h
    split at h
    next =>
      simp only [Option.bind_eq_bind, Option.bind_eq_some_iff, Option.pure_def, Option.some.injEq] at h
      obtain ⟨success, hsuccess, message, hmessage, routes, hroutes, rfl⟩ := h
      simp [nesting_of_required hsuccess, nesting_of_optional hmessage, nesting_of_required hroutes]
    next => cases h

/-! ### Messages to the contract -/

instance : Faithful AssetIdentifier where
  decode_read {i depth} h := by
    cases i with
    | assetUuid uuid =>
      obtain ⟨d, rfl, -⟩ := nesting_choice_le_iff.mp h
      rfl
    | scopeAddress address =>
      obtain ⟨d, rfl, -⟩ := nesting_choice_le_iff.mp h
      rfl
  nesting_le {i depth t} h := by
    obtain ⟨⟨d, name, content⟩, hchoice, -⟩ := Option.bind_eq_some_iff.mp h
    cases i <;> exact nesting_choice_le_iff.mpr ⟨d, depth_of_choice hchoice, Nat.zero_le _⟩

/-- The fields of a message as they are written. -/
def Command.fields (c : Command) : List (String × Json) :=
  [("identifier", Wire.toJson c.identifier), ("asset_type", Wire.toJson c.assetType),
    ("success", Wire.toJson c.success), ("message", Wire.toJson c.message),
    ("access_routes", Wire.toJson c.accessRoutes)]

theorem Command.toJson_eq (c : Command) : Wire.toJson c = .obj [("verify_asset", .obj c.fields)] :=
  rfl

theorem Command.record_fields (c : Command) (depth : Nat) :
    record ["identifier", "asset_type", "success", "message", "access_routes"] (depth + 1)
      (Json.read (.obj c.fields)) = some (depth, c.fields.map fun m => some (Json.read m.2)) := by
  have hnames : ["identifier", "asset_type", "success", "message", "access_routes"].Nodup := by decide
  have hdistinct : (c.fields.map Prod.fst).Nodup := hnames
  exact record_read hdistinct depth

instance : Faithful Command where
  decode_read {c depth} h := by
    rw [Command.toJson_eq] at h ⊢
    obtain ⟨d, rfl, hcontent⟩ := nesting_choice_le_iff.mp h
    obtain ⟨d, rfl, hfields⟩ := nesting_obj_le_iff.mp hcontent
    simp only [Command.fields, List.forall_mem_cons] at hfields
    simp only [Wire.decode, choice_read, Option.bind_eq_bind, Option.bind_some, Command.record_fields]
    simp [Command.fields, required_read, optional_read, hfields]
  nesting_le {c depth t} h := by
    obtain ⟨⟨d, name, content⟩, hchoice, h⟩ := Option.bind_eq_some_iff.mp h
    split at h
    next hname =>
      obtain ⟨rfl, rfl, rfl⟩ := hname
      obtain ⟨r, hrecord, h⟩ := Option.bind_eq_some_iff.mp h
      split at h
      next =>
        simp only [Option.bind_eq_bind, Option.bind_eq_some_iff, Option.pure_def, Option.some.injEq] at h
        obtain ⟨identifier, hidentifier, type, htype, success, hsuccess, message, hmessage, routes, hroutes, rfl⟩ := h
        rw [Command.toJson_eq, nesting_choice_le_iff]
        refine ⟨_, depth_of_choice hchoice, nesting_obj_le_iff.mpr ⟨_, depth_of_record hrecord, ?_⟩⟩
        simp [Command.fields, nesting_of_required hidentifier, nesting_of_required htype,
          nesting_of_required hsuccess, nesting_of_optional hmessage, nesting_of_required hroutes]
      next => cases h
    next => cases h

end Attestor.Contract

namespace Attestor

open Json (RoundTrips Faithful)

/-- **What was written is read back.** Each of these types round-trips through its text: a value is read from its text
exactly if that nests to no more levels than may be read, and what is read from any text at all is read again from
its own text. -/
theorem entities_roundTrip :
    RoundTrips Chain.Event ∧ RoundTrips Chain.Block ∧ RoundTrips Chain.Account ∧ RoundTrips Chain.Fee ∧
      RoundTrips Chain.Transaction ∧ RoundTrips Chain.SignedTransaction ∧ RoundTrips Chain.Receipt ∧
      RoundTrips Contract.ScopeRecord ∧ RoundTrips Contract.Decision ∧ RoundTrips Contract.AssetIdentifier ∧
      RoundTrips Contract.Command :=
  ⟨Faithful.roundTrips _, Faithful.roundTrips _, Faithful.roundTrips _, Faithful.roundTrips _,
    Faithful.roundTrips _, Faithful.roundTrips _, Faithful.roundTrips _, Faithful.roundTrips _,
    Faithful.roundTrips _, Faithful.roundTrips _, Faithful.roundTrips _⟩

end Attestor
