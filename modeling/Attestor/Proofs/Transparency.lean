import Attestor.Proofs.Classification
import Attestor.Proofs.Encodings

/-!
Transparency of encodings. A list of keys and values may be written in plain text or in base64. Written in base64 it is
always seen to be so, and it is recognised exactly if one of its keys is a key of the contract; then it is recognised in
plain text too, and nothing but the encoding tells the two events apart (`classify_transparent`). Dictionaries hold each
key once, so what an event was recognised to say can be written again, in either encoding, without a change.
-/

namespace Attestor.Contract

open Chain (Height)

/-! ### Writing events -/

/-- The attribute that says a key and a value. -/
def Encoding.write : Encoding → String × String → Chain.Attribute
  | .plain, said => ⟨said.1, said.2⟩
  | .base64, said => ⟨Text.Base64.encodeText said.1, Text.Base64.encodeText said.2⟩

/-- The event that says these keys and values. -/
def emitted (encoding : Encoding) (height : Height) (hash : String) (said : List (String × String)) : Chain.Event :=
  ⟨height, hash, eventType, said.map encoding.write⟩

/-- One of the keys is a key of the contract. -/
def Mentions (said : List (String × String)) : Prop :=
  ∃ entry ∈ said, ∃ k : Key, entry.1 = k.text

theorem Encoding.normalize_write (encoding : Encoding) (entry : String × String) :
    encoding.normalize (encoding.write entry) = some entry := by
  cases encoding <;> simp [normalize, write]

/-- What was written is read, and none of it is left out. -/
theorem Encoding.filterMap_normalize_write (encoding : Encoding) (said : List (String × String)) :
    (said.map encoding.write).filterMap encoding.normalize = said := by
  have hread : encoding.normalize ∘ encoding.write = some := funext encoding.normalize_write
  rw [List.filterMap_map, hread, List.filterMap_some]

theorem Encoding.detect_write_base64 (said : List (String × String)) :
    detect (said.map (write .base64)) = .base64 := by
  have hencoded : said.map (write .base64) = (said.map (write .plain)).map Chain.Attribute.encoded := by
    rw [List.map_map]
    rfl
  rw [hencoded, detect_encoded]

/-- With a key of the contract in it, the encoding of an event is seen. -/
theorem Mentions.detect_write {said : List (String × String)} (h : Mentions said) (encoding : Encoding) :
    Encoding.detect (said.map encoding.write) = encoding := by
  cases encoding with
  | base64 => exact Encoding.detect_write_base64 said
  | plain =>
    obtain ⟨entry, hentry, k, hk⟩ := h
    exact Encoding.detect_plain ⟨_, List.mem_map_of_mem hentry, Key.isKey_iff.mpr ⟨k, hk⟩⟩

/-- A key of the contract is among the keys of a list exactly if it is among those of its dictionary. -/
theorem any_isKey_ofList_iff {said : List (String × String)} :
    ((Dictionary.ofList said).entries.any fun e => Key.isKey e.1) = true ↔ Mentions said := by
  have hany := @any_isKey_iff .plain (said.map (Encoding.write .plain))
  rw [Encoding.filterMap_normalize_write] at hany
  simp only [hany, says_iff, List.mem_map]
  constructor
  · rintro ⟨_, ⟨entry, hentry, rfl⟩, k, value, hread⟩
    obtain rfl := Option.some.inj ((Encoding.normalize_write _ _).symm.trans hread)
    exact ⟨_, hentry, k, rfl⟩
  · rintro ⟨⟨key, value⟩, hentry, k, rfl⟩
    exact ⟨_, ⟨_, hentry, rfl⟩, k, value, Encoding.normalize_write _ _⟩

/-- Where the encoding of an event is seen, it is recognised if it mentions a key of the contract. -/
theorem classify_emitted {encoding : Encoding} {said : List (String × String)}
    (h : Encoding.detect (said.map encoding.write) = encoding) (height : Height) (hash : String) :
    Event.classify (emitted encoding height hash said) =
      if (Dictionary.ofList said).entries.any fun e => Key.isKey e.1 then
        some ⟨height, hash, encoding, Dictionary.ofList said⟩
      else none := by
  simp only [Event.classify, emitted, ne_eq, not_true_eq_false, if_false, h, Encoding.filterMap_normalize_write]

theorem Mentions.classify_emitted {said : List (String × String)} (h : Mentions said) (encoding : Encoding)
    (height : Height) (hash : String) : Event.classify (emitted encoding height hash said) =
      some ⟨height, hash, encoding, Dictionary.ofList said⟩ := by
  rw [Contract.classify_emitted (h.detect_write encoding), if_pos (any_isKey_ofList_iff.mpr h)]

/-! ### Writing again what was recognised -/

/-- A dictionary is the dictionary of its entries. -/
theorem ofList_entries {α : Type} (d : Dictionary α) : Dictionary.ofList d.entries = d :=
  dictionary_ext fun key => Dictionary.get?_ofList d.entries key

/-- An event is recognised by a key of the contract that is among its attributes. -/
theorem mentions_of_classify {raw : Chain.Event} {e : Event} (h : Event.classify raw = some e) :
    Mentions e.attributes.entries := by
  have hread := classify_eq_some_iff.mp h
  obtain ⟨a, ha, k, value, hsays⟩ := hread.recognised
  obtain ⟨first, hfirst⟩ := (hread.keys k.text).mpr ⟨a, ha, value, hsays⟩
  exact ⟨_, hfirst, k, rfl⟩

/-! ### Transparency -/

/-- Nothing but their encodings tells the events apart. -/
structure ShowAlike (e e' : Event) : Prop where
  attributes : e.attributes = e'.attributes
  blockHeight : e.blockHeight = e'.blockHeight
  txHash : e.txHash = e'.txHash
  value : ∀ k, e.value? k = e'.value? k
  contractAddress : e.contractAddress = e'.contractAddress
  kindName : e.kindName = e'.kindName
  kind : e.kind = e'.kind
  assetType : e.assetType = e'.assetType
  scopeAddress : e.scopeAddress = e'.scopeAddress
  verifierAddress : e.verifierAddress = e'.verifierAddress
  scopeOwnerAddress : e.scopeOwnerAddress = e'.scopeOwnerAddress
  newStatus : e.newStatus = e'.newStatus
  message : e.message = e'.message
  summary : e.summary = e'.summary

/-- Events with the same attributes, height and hash show the same. -/
theorem ShowAlike.of_plain {e e' : Event} (h : e.plain = e'.plain) : ShowAlike e e' := by
  obtain ⟨height, hash, encoding, attributes⟩ := e
  obtain ⟨rfl, rfl, -, rfl⟩ := Event.mk.inj h
  exact ⟨rfl, rfl, rfl, fun _ => rfl, rfl, rfl, rfl, rfl, rfl, rfl, rfl, rfl, rfl, rfl⟩

/-- What becomes of a list of keys and values that is written as an event. -/
structure Transparent (height : Height) (hash : String) (said : List (String × String)) : Prop where
  /-- In base64 it is seen to be in base64, whatever it says. -/
  detected : Encoding.detect (emitted .base64 height hash said).attributes = .base64
  /-- In base64 it is recognised exactly by a key of the contract. -/
  recognised : (∃ e, Event.classify (emitted .base64 height hash said) = some e) ↔ Mentions said
  /-- Then it is recognised in plain text too, as what it says, and both ways it shows the same. -/
  alike : Mentions said → ∃ e e', Event.classify (emitted .plain height hash said) = some e ∧
    Event.classify (emitted .base64 height hash said) = some e' ∧ ShowAlike e e' ∧
    e.attributes = Dictionary.ofList said ∧ e.blockHeight = height ∧ e.txHash = hash ∧
    e.encoding = .plain ∧ e'.encoding = .base64

theorem transparent (height : Height) (hash : String) (said : List (String × String)) :
    Transparent height hash said where
  detected := Encoding.detect_write_base64 said
  recognised := by
    rw [classify_emitted (Encoding.detect_write_base64 said), ← any_isKey_ofList_iff]
    split
    next h => exact iff_of_true ⟨_, rfl⟩ h
    next h => exact iff_of_false nofun h
  alike h := ⟨_, _, h.classify_emitted .plain height hash, h.classify_emitted .base64 height hash,
    .of_plain rfl, rfl, rfl, rfl, rfl, rfl⟩

/-- **The encoding of an event makes no difference.** A list of keys and values is recognised in base64 exactly if one
of the keys is a key of the contract, and then in plain text as well, as the same event; and the attributes of any event
that was recognised are recognised again, in whichever encoding they are written. -/
theorem classify_transparent :
    (∀ height hash said, Transparent height hash said) ∧
      ∀ raw e, Event.classify raw = some e → ∀ encoding height hash,
        ∃ e', Event.classify (emitted encoding height hash e.attributes.entries) = some e' ∧
          e'.attributes = e.attributes ∧ e'.encoding = encoding ∧ e'.blockHeight = height ∧ e'.txHash = hash := by
  refine ⟨transparent, fun raw e h encoding height hash => ?_⟩
  refine ⟨_, (mentions_of_classify h).classify_emitted encoding height hash, ?_, rfl, rfl, rfl⟩
  exact ofList_entries e.attributes

/-- A key that is said twice, with texts outside of ASCII, in base64. -/
example : (Event.classify (emitted .base64 7 "AB" [("asset_type", "prêt"), ("ключ", ""), ("asset_type", "loan")])).map
    (fun e => (e.assetType, e.attributes.get? "ключ", e.attributes.entries.length)) =
      some (some "prêt", some "", 2) := by
  decide +kernel

end Attestor.Contract
