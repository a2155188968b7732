import Attestor.Chain.Block
import Attestor.Contract.Vocabulary
import Attestor.Dictionary
import Attestor.Text.Base64
import Attestor.Text.Blank

/-!
Events of the contract, recognised among the events of the chain.

Streams deliver attributes in base64 and queries deliver them in plain text. Which of the two an event uses
is seen from its keys: it is plain if one of them is a key of the contract as it stands. Otherwise keys
and values are decoded, and an attribute that does not decode is left out. An event in which no key is a
key of the contract is none of the contract's events.
-/

namespace Attestor.Contract

/-- How the attributes of an event are written. -/
inductive Encoding where
  | base64
  | plain
  deriving DecidableEq, Repr

namespace Encoding

def name : Encoding → String
  | .base64 => "base64"
  | .plain => "plain"

/-- The encoding of a list of attributes. -/
def detect (attributes : List Chain.Attribute) : Encoding :=
  if attributes.any fun a => Key.isKey a.key then .plain else .base64

/-- An attribute in plain text, unless it does not decode. -/
def normalize : Encoding → Chain.Attribute → Option (String × String)
  | .plain, a => some (a.key, a.value)
  | .base64, a => do return (← Text.Base64.decodeText a.key, ← Text.Base64.decodeText a.value)

end Encoding

/-- An event of the contract. -/
structure Event where
  blockHeight : Chain.Height
  txHash : String
  encoding : Encoding
  attributes : Dictionary String

namespace Event

/-- Recognises an event of the contract. Of attributes with one key the first that decodes counts. -/
def classify (raw : Chain.Event) : Option Event :=
  if raw.eventType ≠ eventType then none
  else
    let encoding := Encoding.detect raw.attributes
    let attributes := Dictionary.ofList (raw.attributes.filterMap encoding.normalize)
    if attributes.entries.any fun e => Key.isKey e.1 then
      some ⟨raw.blockHeight, raw.txHash, encoding, attributes⟩
    else none

/-- The value of a contract attribute, unless it is blank. -/
def value? (e : Event) (key : Key) : Option String :=
  (e.attributes.get? key.text).bind Text.nonBlank

def contractAddress (e : Event) : Option String := e.value? .contractAddress

/-- The name of the event's kind, known or not. -/
def kindName (e : Event) : Option String := e.value? .eventType

/-- The event's kind, if its name is one. -/
def kind (e : Event) : Option EventKind := e.kindName.bind EventKind.ofName?

def assetType (e : Event) : Option String := e.value? .assetType

def scopeAddress (e : Event) : Option String := e.value? .scopeAddress

def verifierAddress (e : Event) : Option String := e.value? .verifierAddress

def scopeOwnerAddress (e : Event) : Option String := e.value? .scopeOwnerAddress

/-- The state that the event reports, if it names one. -/
def newStatus (e : Event) : Option Status := (e.value? .newValue).bind Status.ofName?

def message (e : Event) : Option String := e.value? .additionalMetadata

/-- The event in a line: its kind, its transaction and its height. -/
def summary (e : Event) : String :=
  let kind := e.kindName.getD "<no event type>"
  s!"{kind} [tx {e.txHash} @ {e.blockHeight.toNat}]"

end Event

end Attestor.Contract
