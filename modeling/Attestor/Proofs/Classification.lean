import Attestor.Proofs.Agreement
import Attestor.Proofs.Base64

/-!
What recognising an event comes to, said without the steps that do it.

An event is written in plain text when one of its keys is a key of the contract, and in base64 otherwise
(`WrittenIn`). Under either encoding an attribute says at most one thing (`Says`): in plain text what stands there, in
base64 the texts that its key and value are the written forms of, if both are. Of the attributes that say something
under a key the first counts (`First`); an attribute before it that says nothing does not.

`classify_reference`: the events that are recognised are those of type `wasm` in which something is said under a key of
the contract, what is recognised holds the first of what is said under each key, and each accessor shows that, unless
it is blank.
-/

namespace Attestor.Contract

/-! ### Keys and names -/

theorem Key.isKey_iff {s : String} : Key.isKey s = true ↔ ∃ k : Key, s = k.text := by
  constructor
  · intro h
    obtain ⟨k, hk⟩ := Option.isSome_iff_exists.mp h
    have htext : k.text = s := by simpa using List.find?_some hk
    exact ⟨k, htext.symm⟩
  · rintro ⟨k, rfl⟩
    rw [Key.isKey, Key.ofText?_text, Option.isSome_some]

theorem EventKind.ofName?_eq_some_iff {s : String} {k : EventKind} : EventKind.ofName? s = some k ↔ s = k.name := by
  refine ⟨fun h => ?_, fun h => h ▸ EventKind.ofName?_name k⟩
  have hname : k.name = s := by simpa using List.find?_some h
  exact hname.symm

theorem Status.ofName?_eq_some_iff {s : String} {status : Status} :
    Status.ofName? s = some status ↔ s = status.name := by
  refine ⟨fun h => ?_, fun h => h ▸ Status.ofName?_name status⟩
  unfold Status.ofName? at h
  cases status <;> grind [Status.name]

/-! ### What attributes say -/

/-- The encoding that an event with these attributes is read under. -/
inductive WrittenIn (attributes : List Chain.Attribute) : Encoding → Prop
  | plain {a : Chain.Attribute} {k : Key} (mem : a ∈ attributes) (key : a.key = k.text) : WrittenIn attributes .plain
  | base64 (keys : ∀ a ∈ attributes, ∀ k : Key, a.key ≠ k.text) : WrittenIn attributes .base64

/-- Under the encoding the attribute says the value under the key. -/
inductive Says : Encoding → Chain.Attribute → String → String → Prop
  | plain (key value : String) : Says .plain ⟨key, value⟩ key value
  | base64 (key value : String) : Says .base64 ⟨Text.Base64.encodeText key, Text.Base64.encodeText value⟩ key value

/-- The value is the first that is said under the key. -/
def First (encoding : Encoding) (attributes : List Chain.Attribute) (key value : String) : Prop :=
  ∃ before a after, attributes = before ++ a :: after ∧ Says encoding a key value ∧
    ∀ b ∈ before, ∀ other, ¬ Says encoding b key other

theorem writtenIn_iff {attributes : List Chain.Attribute} {encoding : Encoding} :
    WrittenIn attributes encoding ↔ Encoding.detect attributes = encoding := by
  have hany : (attributes.any fun a => Key.isKey a.key) = true ↔ ∃ a ∈ attributes, ∃ k : Key, a.key = k.text := by
    simp only [List.any_eq_true, Key.isKey_iff]
  constructor
  · rintro (⟨hmem, hkey⟩ | hkeys)
    · exact if_pos (hany.mpr ⟨_, hmem, _, hkey⟩)
    · exact if_neg fun h => by
        obtain ⟨a, ha, k, hk⟩ := hany.mp h
        exact hkeys a ha k hk
  · rintro rfl
    rw [Encoding.detect]
    split
    next h =>
      obtain ⟨a, ha, k, hk⟩ := hany.mp h
      exact .plain ha hk
    next h => exact .base64 fun a ha k hk => h (hany.mpr ⟨a, ha, k, hk⟩)

theorem says_iff {encoding : Encoding} {a : Chain.Attribute} {key value : String} :
    Says encoding a key value ↔ encoding.normalize a = some (key, value) := by
  obtain ⟨rawKey, rawValue⟩ := a
  cases encoding with
  | plain =>
    constructor
    · rintro ⟨⟩
      rfl
    · intro h
      obtain ⟨rfl, rfl⟩ := Prod.mk.inj (Option.some.inj h)
      exact .plain _ _
  | base64 =>
    constructor
    · rintro ⟨⟩
      simp [Encoding.normalize]
    · intro h
      simp only [Encoding.normalize, Option.bind_eq_bind, Option.bind_eq_some_iff, Option.pure_def, Option.some.injEq,
        Prod.mk.injEq] at h
      obtain ⟨key, hkey, value, hvalue, rfl, rfl⟩ := h
      obtain rfl := Text.Base64.decodeText_eq_some_iff.mp hkey
      obtain rfl := Text.Base64.decodeText_eq_some_iff.mp hvalue
      exact .base64 key value

/-! ### The first that is said -/

section First

variable {encoding : Encoding} {a : Chain.Attribute} {rest : List Chain.Attribute} {key value : String}

theorem First.here (h : Says encoding a key value) : First encoding (a :: rest) key value :=
  ⟨[], a, rest, rfl, h, fun _ hb => absurd hb List.not_mem_nil⟩

theorem First.later (ha : ∀ other, ¬ Says encoding a key other) (h : First encoding rest key value) :
    First encoding (a :: rest) key value := by
  obtain ⟨before, b, after, rfl, hb, hbefore⟩ := h
  refine ⟨a :: before, b, after, rfl, hb, fun c hc => ?_⟩
  rcases List.mem_cons.mp hc with rfl | hc
  · exact ha
  · exact hbefore c hc

theorem first_cons : First encoding (a :: rest) key value ↔
    Says encoding a key value ∨ (∀ other, ¬ Says encoding a key other) ∧ First encoding rest key value := by
  constructor
  · rintro ⟨before, b, after, hsplit, hb, hbefore⟩
    cases before with
    | nil =>
      obtain ⟨rfl, -⟩ := List.cons.inj hsplit
      exact .inl hb
    | cons c before =>
      obtain ⟨rfl, rfl⟩ := List.cons.inj hsplit
      exact .inr ⟨hbefore a List.mem_cons_self,
        before, b, after, rfl, hb, fun c hc => hbefore c (List.mem_cons_of_mem _ hc)⟩
  · rintro (h | ⟨ha, h⟩)
    · exact .here h
    · exact .later ha h

/-- The first that is said under a key is what stands there once all attributes are read. -/
theorem get?_filterMap_normalize {attributes : List Chain.Attribute} :
    Entries.get? key (attributes.filterMap encoding.normalize) = some value ↔
      First encoding attributes key value := by
  induction attributes with
  | nil =>
    refine ⟨nofun, ?_⟩
    rintro ⟨before, b, after, hsplit, -⟩
    simp at hsplit
  | cons a rest ih =>
    rw [first_cons, ← ih]
    simp only [says_iff]
    cases hread : encoding.normalize a with
    | none => simp [hread]
    | some said =>
      obtain ⟨saidKey, saidValue⟩ := said
      by_cases hkey : saidKey = key <;> simp [hread, Entries.get?, hkey]

theorem First.unique {attributes : List Chain.Attribute} {other : String} (h : First encoding attributes key value)
    (hother : First encoding attributes key other) : value = other := by
  have hvalue := get?_filterMap_normalize.mpr h
  rw [get?_filterMap_normalize.mpr hother] at hvalue
  exact (Option.some.inj hvalue).symm

/-- Something is the first under a key exactly if something is said under it. -/
theorem exists_first_iff {attributes : List Chain.Attribute} :
    (∃ value, First encoding attributes key value) ↔ ∃ a ∈ attributes, ∃ value, Says encoding a key value := by
  constructor
  · rintro ⟨value, before, a, after, rfl, ha, -⟩
    exact ⟨a, by simp, value, ha⟩
  · rintro ⟨a, ha, value, hsays⟩
    induction attributes with
    | nil => cases ha
    | cons b rest ih =>
      by_cases hb : ∃ other, Says encoding b key other
      · obtain ⟨other, hb⟩ := hb
        exact ⟨other, .here hb⟩
      · rcases List.mem_cons.mp ha with rfl | ha
        · exact absurd ⟨value, hsays⟩ hb
        · obtain ⟨other, hrest⟩ := ih ha
          exact ⟨other, .later (not_exists.mp hb) hrest⟩

end First

/-! ### The reference -/

/-- The event is what the raw event is read as. -/
structure ReadAs (raw : Chain.Event) (e : Event) : Prop where
  wasm : raw.eventType = "wasm"
  written : WrittenIn raw.attributes e.encoding
  /-- Something is said under a key of the contract. -/
  recognised : ∃ a ∈ raw.attributes, ∃ (k : Key) (value : String), Says e.encoding a k.text value
  /-- The event has the keys under which something is said. -/
  keys : ∀ key, (∃ value, (key, value) ∈ e.attributes.entries) ↔
    ∃ a ∈ raw.attributes, ∃ value, Says e.encoding a key value
  /-- Under each of them stands the first that is said. -/
  values : ∀ key value, (key, value) ∈ e.attributes.entries → First e.encoding raw.attributes key value
  height : e.blockHeight = raw.blockHeight
  hash : e.txHash = raw.txHash

/-- The raw event is none of the contract's events. -/
def Discarded (raw : Chain.Event) : Prop :=
  raw.eventType ≠ "wasm" ∨
    ∃ encoding, WrittenIn raw.attributes encoding ∧
      ∀ a ∈ raw.attributes, ∀ (k : Key) (value : String), ¬ Says encoding a k.text value

/-- The value is the first under the key of the contract, and not blank. -/
def Offers (raw : Chain.Event) (encoding : Encoding) (k : Key) (value : String) : Prop :=
  First encoding raw.attributes k.text value ∧ Text.trim value ≠ ""

/-- What the accessors of the event show of the raw event. -/
structure Shows (raw : Chain.Event) (e : Event) : Prop where
  value : ∀ k v, e.value? k = some v ↔ Offers raw e.encoding k v
  contractAddress : ∀ v, e.contractAddress = some v ↔ Offers raw e.encoding .contractAddress v
  kindName : ∀ v, e.kindName = some v ↔ Offers raw e.encoding .eventType v
  kind : ∀ k, e.kind = some k ↔ Offers raw e.encoding .eventType k.name
  assetType : ∀ v, e.assetType = some v ↔ Offers raw e.encoding .assetType v
  scopeAddress : ∀ v, e.scopeAddress = some v ↔ Offers raw e.encoding .scopeAddress v
  verifierAddress : ∀ v, e.verifierAddress = some v ↔ Offers raw e.encoding .verifierAddress v
  scopeOwnerAddress : ∀ v, e.scopeOwnerAddress = some v ↔ Offers raw e.encoding .scopeOwnerAddress v
  newStatus : ∀ s, e.newStatus = some s ↔ Offers raw e.encoding .newValue s.name
  message : ∀ v, e.message = some v ↔ Offers raw e.encoding .additionalMetadata v

/-- What is left of a text after trimming is nothing exactly if the text is blank. -/
theorem nonBlank_eq_some_iff {s v : String} : Text.nonBlank s = some v ↔ s = v ∧ Text.trim v ≠ "" := by
  have hblank : Text.isBlank s = true ↔ Text.trim s = "" := by
    rw [Text.isBlank, List.isEmpty_iff, Text.trim, String.ofList_eq_empty_iff]
  rw [Text.nonBlank]
  split
  next h =>
    refine ⟨fun hs => absurd hs (Option.some_ne_none v).symm, ?_⟩
    rintro ⟨rfl, hv⟩
    exact absurd (hblank.mp h) hv
  next h =>
    constructor
    · intro hs
      obtain rfl := Option.some.inj hs
      exact ⟨rfl, fun hempty => h (hblank.mpr hempty)⟩
    · rintro ⟨rfl, -⟩
      rfl

theorem ReadAs.mem_entries_iff {raw : Chain.Event} {e : Event} (h : ReadAs raw e) {key value : String} :
    (key, value) ∈ e.attributes.entries ↔ First e.encoding raw.attributes key value := by
  refine ⟨h.values key value, fun hfirst => ?_⟩
  obtain ⟨other, hother⟩ := (h.keys key).mpr (exists_first_iff.mp ⟨value, hfirst⟩)
  obtain rfl := First.unique hfirst (h.values key other hother)
  exact hother

theorem ReadAs.shows {raw : Chain.Event} {e : Event} (h : ReadAs raw e) : Shows raw e := by
  have hvalue (k : Key) (v : String) : e.value? k = some v ↔ Offers raw e.encoding k v := by
    rw [Event.value?, Option.bind_eq_some_iff, Offers, ← h.mem_entries_iff, Dictionary.mem_entries_iff]
    constructor
    · rintro ⟨s, hs, hv⟩
      obtain ⟨rfl, hblank⟩ := nonBlank_eq_some_iff.mp hv
      exact ⟨hs, hblank⟩
    · rintro ⟨hv, hblank⟩
      exact ⟨v, hv, nonBlank_eq_some_iff.mpr ⟨rfl, hblank⟩⟩
  have hkind (k : EventKind) : e.kind = some k ↔ e.kindName = some k.name := by
    simp only [Event.kind, Option.bind_eq_some_iff, EventKind.ofName?_eq_some_iff, exists_eq_right]
  have hstatus (s : Status) : e.newStatus = some s ↔ e.value? .newValue = some s.name := by
    simp only [Event.newStatus, Option.bind_eq_some_iff, Status.ofName?_eq_some_iff, exists_eq_right]
  exact {
    value := hvalue
    contractAddress := hvalue _
    kindName := hvalue _
    kind := fun k => (hkind k).trans (hvalue _ _)
    assetType := hvalue _
    scopeAddress := hvalue _
    verifierAddress := hvalue _
    scopeOwnerAddress := hvalue _
    newStatus := fun s => (hstatus s).trans (hvalue _ _)
    message := hvalue _ }

theorem mem_ofList_iff {encoding : Encoding} {attributes : List Chain.Attribute} {key value : String} :
    (key, value) ∈ (Dictionary.ofList (attributes.filterMap encoding.normalize)).entries ↔
      First encoding attributes key value := by
  rw [Dictionary.mem_entries_iff, Dictionary.get?_ofList, get?_filterMap_normalize]

/-- What is said under a key of the contract is what recognising looks for. -/
theorem any_isKey_iff {encoding : Encoding} {attributes : List Chain.Attribute} :
    ((Dictionary.ofList (attributes.filterMap encoding.normalize)).entries.any fun e => Key.isKey e.1) = true ↔
      ∃ a ∈ attributes, ∃ (k : Key) (value : String), Says encoding a k.text value := by
  simp only [List.any_eq_true, Key.isKey_iff, Prod.exists, mem_ofList_iff]
  constructor
  · rintro ⟨key, value, hfirst, k, rfl⟩
    obtain ⟨a, ha, value, hsays⟩ := exists_first_iff.mp ⟨value, hfirst⟩
    exact ⟨a, ha, k, value, hsays⟩
  · rintro ⟨a, ha, k, value, hsays⟩
    obtain ⟨first, hfirst⟩ := exists_first_iff.mpr ⟨a, ha, value, hsays⟩
    exact ⟨k.text, first, hfirst, k, rfl⟩

/-- A dictionary is what it has under each key. -/
theorem dictionary_ext {α : Type} {d e : Dictionary α} (h : ∀ key, d.get? key = e.get? key) : d = e := by
  obtain ⟨entries, hd⟩ := d
  obtain ⟨others, he⟩ := e
  obtain rfl := Json.ascending_ext hd he h
  rfl

theorem classify_eq_some_iff {raw : Chain.Event} {e : Event} : Event.classify raw = some e ↔ ReadAs raw e := by
  rw [Event.classify]
  constructor
  · intro h
    split at h
    · cases h
    next htype =>
      dsimp only at h
      split at h
      next hany =>
        obtain rfl := Option.some.inj h
        exact {
          wasm := Decidable.not_not.mp htype
          written := writtenIn_iff.mpr rfl
          recognised := any_isKey_iff.mp hany
          keys := fun key => by rw [← exists_first_iff]; simp only [mem_ofList_iff]
          values := fun key value => mem_ofList_iff.mp
          height := rfl
          hash := rfl }
      · cases h
  · intro h
    have hattributes : Dictionary.ofList (raw.attributes.filterMap e.encoding.normalize) = e.attributes := by
      refine dictionary_ext fun key => Option.ext fun value => ?_
      rw [← Dictionary.mem_entries_iff, ← Dictionary.mem_entries_iff, mem_ofList_iff, h.mem_entries_iff]
    have hany := any_isKey_iff.mpr h.recognised
    rw [if_neg fun hne => hne h.wasm, writtenIn_iff.mp h.written]
    dsimp only
    rw [if_pos hany, hattributes, ← h.height, ← h.hash]

theorem classify_eq_none_iff {raw : Chain.Event} : Event.classify raw = none ↔ Discarded raw := by
  have hsaid : (∃ encoding, WrittenIn raw.attributes encoding ∧
      ∀ a ∈ raw.attributes, ∀ (k : Key) (value : String), ¬ Says encoding a k.text value) ↔
      ¬ ∃ a ∈ raw.attributes, ∃ (k : Key) (value : String),
        Says (Encoding.detect raw.attributes) a k.text value := by
    simp only [writtenIn_iff, exists_eq_left', not_exists, not_and]
  rw [Discarded, hsaid, ← any_isKey_iff, Event.classify]
  split
  next htype => exact iff_of_true rfl (.inl htype)
  next htype =>
    have hwasm : ¬ raw.eventType ≠ "wasm" := htype
    dsimp only
    split
    next hany => exact iff_of_false nofun fun h => h.elim hwasm fun hnone => hnone hany
    next hany => exact iff_of_true rfl (.inr hany)

/-- **Recognising an event does what is said of it.** What is recognised is what the raw event is read as; an event is
discarded exactly if it is not of type `wasm` or nothing is said in it under a key of the contract; and each accessor
shows the first that is said under its key, unless that is blank. -/
theorem classify_reference (raw : Chain.Event) :
    (∀ e, Event.classify raw = some e ↔ ReadAs raw e) ∧
      (Event.classify raw = none ↔ Discarded raw) ∧
      ∀ e, Event.classify raw = some e → Shows raw e :=
  ⟨fun _ => classify_eq_some_iff, classify_eq_none_iff, fun _ h => (classify_eq_some_iff.mp h).shows⟩

/-- A blank value counts as the first under its key, and is not shown. -/
example : (Event.classify ⟨7, "AB", "wasm", [⟨"asset_type", " "⟩, ⟨"asset_type", "loan"⟩]⟩).map Event.assetType =
    some none := by
  decide

end Attestor.Contract
