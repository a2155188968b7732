import Attestor.Proofs.Base64
import Attestor.Proofs.Routings
import Mathlib.Data.List.Basic

/-!
Encodings of events. An event that a stream delivers in base64 is recognised as the event that a query delivers in
plain text, but for the encoding that it records (`classify_encoded`); this needs a key of the contract among its keys,
as the encoding is seen from that. What is done for two events that differ in nothing but their encodings should not
differ either: `plain` forgets the encoding wherever an event is kept, activities are `Alike` if they do the same up to
encodings, and a handler is `Indifferent` if it does something alike for such events. The default handlers are.
-/

namespace Attestor

open Contract (Event EventKind Key Verification)

/-! ### Events in base64 -/

namespace Chain

/-- The attribute as a stream delivers it: key and value in base64. -/
def Attribute.encoded (a : Attribute) : Attribute :=
  ⟨Text.Base64.encodeText a.key, Text.Base64.encodeText a.value⟩

/-- The event as a stream delivers it. -/
def Event.encoded (e : Event) : Event := { e with attributes := e.attributes.map Attribute.encoded }

/-- Unless the event is none that contracts emit, one of its keys is a key of the contract as it stands. -/
def Event.Marked (e : Event) : Prop :=
  e.eventType = Contract.eventType → ∃ a ∈ e.attributes, Key.isKey a.key = true

end Chain

namespace Contract

theorem Encoding.detect_encoded (attributes : List Chain.Attribute) :
    detect (attributes.map Chain.Attribute.encoded) = .base64 := by
  refine if_neg fun h => ?_
  obtain ⟨a, ha, hkey⟩ := List.any_eq_true.mp h
  obtain ⟨a, -, rfl⟩ := List.mem_map.mp ha
  exact Bool.false_ne_true ((Key.isKey_encodeText a.key).symm.trans hkey)

theorem Encoding.detect_plain {attributes : List Chain.Attribute}
    (h : ∃ a ∈ attributes, Key.isKey a.key = true) : detect attributes = .plain :=
  if_pos (List.any_eq_true.mpr h)

/-- What is decoded is what was encoded. -/
theorem Encoding.normalize_encoded (a : Chain.Attribute) : normalize .base64 a.encoded = normalize .plain a := by
  simp [normalize, Chain.Attribute.encoded]

/-- An event in base64 is recognised as the same event in plain text is, and records how it was written. -/
theorem Event.classify_encoded {raw : Chain.Event} (h : raw.Marked) :
    classify raw.encoded = (classify raw).map fun e => { e with encoding := .base64 } := by
  by_cases htype : raw.eventType = eventType
  · have hattributes : raw.encoded.attributes.filterMap (Encoding.normalize .base64) =
        raw.attributes.filterMap (Encoding.normalize .plain) := by
      rw [Chain.Event.encoded, List.filterMap_map]
      exact List.filterMap_congr fun a _ => Encoding.normalize_encoded a
    have hencoded : Encoding.detect raw.encoded.attributes = .base64 := Encoding.detect_encoded raw.attributes
    have htype' : raw.encoded.eventType = eventType := htype
    simp only [classify, if_neg (not_not_intro htype), if_neg (not_not_intro htype'), hencoded,
      Encoding.detect_plain (h htype), hattributes]
    split <;> rfl
  · rw [classify, classify, if_pos htype, if_pos (show raw.encoded.eventType ≠ eventType from htype)]
    rfl

/-! ### Forgetting encodings -/

/-- The event as if it had come in plain text. -/
def Event.plain (e : Event) : Event := { e with encoding := .plain }

/-- The verification, of an event as if it had come in plain text. -/
def Verification.plain (v : Verification) : Verification := { v with event := v.event.plain }

/-- Events of a block in base64 are recognised as those in plain text, up to encodings. -/
theorem Event.plain_classify_encoded {raws : List Chain.Event} (h : ∀ raw ∈ raws, raw.Marked) :
    ((raws.map Chain.Event.encoded).filterMap classify).map plain = (raws.filterMap classify).map plain := by
  rw [List.filterMap_map, List.map_filterMap, List.map_filterMap]
  refine List.filterMap_congr fun raw hraw => ?_
  rw [Function.comp_apply, classify_encoded (h raw hraw), Option.map_map]
  rfl

/-- Nothing is read off the encoding of an event. -/
theorem Event.value?_congr {e e' : Event} (h : e.plain = e'.plain) (key : Key) : e.value? key = e'.value? key := by
  have hattributes : e.attributes = e'.attributes := (Event.mk.inj h).2.2.2
  rw [value?, value?, hattributes]

end Contract

/-- The diagnostic, about an event as if it had come in plain text. -/
def Diagnostic.plain : Diagnostic → Diagnostic
  | .ignored event reason => .ignored event.plain reason
  | .handlerFailed event kind error => .handlerFailed event.plain kind error
  | .onboarding event result => .onboarding event.plain result
  | .confirmation event result => .confirmation event.plain result
  | .submission verification result => .submission verification.plain result
  | d => d

namespace Handler

/-- The effect, about an event as if it had come in plain text. -/
def Effect.plain : Effect → Effect
  | .publish d => .publish d.plain
  | .enqueue v => .enqueue v.plain
  | x => x

theorem Effect.told_plain (x : Effect) : x.plain.told = x.told.map Diagnostic.plain := by
  cases x <;> rfl

theorem Effect.queued_plain (x : Effect) : x.plain.queued = x.queued.map Verification.plain := by
  cases x <;> rfl

/-- What is read off effects that are the same up to encodings is the same up to encodings. -/
theorem flatMap_of_plain {α : Type} {read : Effect → List α} {forget : α → α}
    (hread : ∀ x, read x.plain = (read x).map forget) {xs ys : List Effect}
    (h : xs.map Effect.plain = ys.map Effect.plain) : (xs.flatMap read).map forget = (ys.flatMap read).map forget := by
  have hmap : ∀ zs : List Effect, (zs.flatMap read).map forget = (zs.map Effect.plain).flatMap read := by
    intro zs
    rw [List.map_flatMap, List.flatMap_map]
    exact congrArg (zs.flatMap ·) (funext fun x => (hread x).symm)
  rw [hmap, hmap, h]

theorem told_of_plain {xs ys : List Effect} (h : xs.map Effect.plain = ys.map Effect.plain) :
    (xs.flatMap Effect.told).map Diagnostic.plain = (ys.flatMap Effect.told).map Diagnostic.plain :=
  flatMap_of_plain Effect.told_plain h

theorem queued_of_plain {xs ys : List Effect} (h : xs.map Effect.plain = ys.map Effect.plain) :
    (xs.flatMap Effect.queued).map Verification.plain = (ys.flatMap Effect.queued).map Verification.plain :=
  flatMap_of_plain Effect.queued_plain h

/-! ### Activities that do the same -/

/-- The activities do the same, whatever they are answered, up to the encodings of events. -/
inductive Activity.Alike : Activity → Activity → Prop where
  | done : Alike .done .done
  | fail {error} : Alike (.fail error) (.fail error)
  | panic {p} : Alike (.panic p) (.panic p)
  | hang : Alike .hang .hang
  | publish {d d' rest rest'} (hd : d.plain = d'.plain) (hrest : Alike rest rest') :
      Alike (.publish d rest) (.publish d' rest')
  | enqueue {v v' rest rest'} (hv : v.plain = v'.plain) (hrest : Alike rest rest') :
      Alike (.enqueue v rest) (.enqueue v' rest')
  | scopeRecord {contract scope rest rest'} (hrest : ∀ answer, Alike (rest answer) (rest' answer)) :
      Alike (.scopeRecord contract scope rest) (.scopeRecord contract scope rest')
  | retrieve {scope rest rest'} (hrest : ∀ answer, Alike (rest answer) (rest' answer)) :
      Alike (.retrieve scope rest) (.retrieve scope rest')
  | verify {scope asset rest rest'} (hrest : ∀ answer, Alike (rest answer) (rest' answer)) :
      Alike (.verify scope asset rest) (.verify scope asset rest')

/-- Two calls panic alike, or give activities that do the same. -/
inductive SameCalls : Except Panic Activity → Except Panic Activity → Prop where
  | panic (p : Panic) : SameCalls (.error p) (.error p)
  | activity {a a'} (h : a.Alike a') : SameCalls (.ok a) (.ok a')

/-- The call, with its event as if it had come in plain text. -/
def Call.plain (call : Call) : Call := { call with event := call.event.plain }

end Handler

/-- What the handler does does not depend on the encoding of the event. -/
def Handler.Indifferent (h : Handler) : Prop :=
  ∀ call call', call.plain = call'.plain → Handler.SameCalls (h call) (h call')

namespace Handler

/-- No handler in the registry depends on the encodings of events. -/
def Registry.Indifferent (r : Registry) : Prop :=
  ∀ kind handler, r.get? kind = some handler → handler.Indifferent

/-! ### The default handlers -/

section

open Activity (Alike)

variable {call call' : Call}

theorem Call.of_plain (h : call.plain = call'.plain) :
    call.event.plain = call'.event.plain ∧ call.contract = call'.contract ∧ call.signer = call'.signer :=
  Call.mk.inj h

theorem ifAddressed_alike (h : call.plain = call'.plain) {kind : EventKind} {rest rest' : Bool → Activity}
    (hrest : ∀ addressed, Alike (rest addressed) (rest' addressed)) :
    Alike (call.ifAddressed kind rest) (call'.ifAddressed kind rest') := by
  obtain ⟨hevent, -, hsigner⟩ := Call.of_plain h
  have hverifier : call.event.verifierAddress = call'.event.verifierAddress :=
    Contract.Event.value?_congr hevent .verifierAddress
  unfold Call.ifAddressed
  rw [hverifier, hsigner]
  split
  · exact .publish (congrArg (Diagnostic.ignored · _) hevent) (hrest false)
  · split
    · exact hrest true
    · exact .publish (congrArg (Diagnostic.ignored · _) hevent) (hrest false)

theorem conclude_alike {e e' : Event} (h : e.plain = e'.plain) (result : Onboarding) :
    Alike (conclude e result) (conclude e' result) :=
  .publish (congrArg (Diagnostic.onboarding · result) h) .done

theorem lacking_alike {e e' : Event} (h : e.plain = e'.plain) (kind : EventKind) (key : Key) :
    Alike (lacking e kind key) (lacking e' kind key) :=
  .publish (congrArg (Diagnostic.ignored · _) h) .done

theorem decide_alike {e e' : Event} (h : e.plain = e'.plain) (record : Contract.ScopeRecord) :
    Alike (decide e record) (decide e' record) := by
  refine .retrieve fun retrieved => ?_
  cases retrieved with
  | error fault => exact conclude_alike h _
  | ok asset =>
    refine .verify fun verified => ?_
    cases verified with
    | error fault => exact conclude_alike h _
    | ok decision =>
      exact .enqueue (congrArg (fun e : Event => (⟨e, record, decision⟩ : Verification)) h) (conclude_alike h _)

theorem onboard_indifferent : Handler.Indifferent onboard := by
  intro call call' h
  obtain ⟨hevent, hcontract, -⟩ := Call.of_plain h
  have hscope : call.event.scopeAddress = call'.event.scopeAddress :=
    Contract.Event.value?_congr hevent .scopeAddress
  have htype : call.event.assetType = call'.event.assetType := Contract.Event.value?_congr hevent .assetType
  refine .activity (ifAddressed_alike h fun addressed => ?_)
  cases addressed with
  | false => exact .done
  | true =>
    dsimp only
    rw [hscope, htype]
    split
    · exact lacking_alike hevent _ _
    · exact lacking_alike hevent _ _
    · unfold inspect
      rw [hcontract]
      refine .scopeRecord fun found => ?_
      cases found with
      | error failure => exact conclude_alike hevent _
      | ok record =>
        dsimp only
        split
        · exact decide_alike hevent record
        · exact conclude_alike hevent _

theorem confirm_indifferent : Handler.Indifferent confirm := by
  intro call call' h
  obtain ⟨hevent, hcontract, -⟩ := Call.of_plain h
  have hscope : call.event.scopeAddress = call'.event.scopeAddress :=
    Contract.Event.value?_congr hevent .scopeAddress
  have hstatus : call.event.newStatus = call'.event.newStatus :=
    congrArg (·.bind Contract.Status.ofName?) (Contract.Event.value?_congr hevent .newValue)
  refine .activity (ifAddressed_alike h fun addressed => ?_)
  cases addressed with
  | false => exact .done
  | true =>
    dsimp only
    rw [hscope]
    split
    · exact lacking_alike hevent _ _
    · rw [hcontract]
      refine .scopeRecord fun found => ?_
      cases found with
      | error failure => exact .publish (congrArg (Diagnostic.confirmation · _) hevent) .done
      | ok record =>
        dsimp only
        rw [hstatus]
        exact .publish (congrArg (Diagnostic.confirmation · _) hevent) .done

/-- The default handlers do not depend on the encodings of events. -/
theorem default_indifferent : Registry.default.Indifferent := by
  intro kind handler hget
  obtain ⟨-, rfl⟩ | ⟨-, rfl⟩ := Registry.of_default hget
  · exact confirm_indifferent
  · exact onboard_indifferent

end

end Handler

/-! ### Routing -/

namespace Routing

/-- Where an event goes does not depend on its encoding. -/
theorem Router.direct_congr (r : Router) {e e' : Event} (h : e.plain = e'.plain) : r.direct e = r.direct e' := by
  have hplain : r.direct e.plain = r.direct e'.plain := congrArg r.direct h
  exact hplain

/-- What is reported of an end is the same up to encodings. -/
theorem reports_plain {e e' : Event} (h : e.plain = e'.plain) (kind : EventKind) (ending : Handler.Ending) :
    ((reports e kind ending).map Handler.Effect.publish).map Handler.Effect.plain =
      ((reports e' kind ending).map Handler.Effect.publish).map Handler.Effect.plain := by
  unfold reports
  cases complaint ending with
  | none => rfl
  | some error =>
    have hd : Diagnostic.plain (.handlerFailed e kind error) = Diagnostic.plain (.handlerFailed e' kind error) :=
      congrArg (Diagnostic.handlerFailed · kind error) h
    exact congrArg (fun d => [Handler.Effect.publish d]) hd

end Routing

end Attestor
