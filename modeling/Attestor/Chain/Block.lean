import Attestor.Json.Decoder

/-!
Blocks as a stream delivers them: a height and the events of the transactions in it. An event has a type
and attributes; keys and values may be plain or in base64, and keys may repeat.
-/

namespace Attestor.Chain

/-- The height of a block. -/
abbrev Height := UInt64

/-- A key and a value of an event. -/
structure Attribute where
  key : String
  value : String
  deriving DecidableEq, Repr

/-- An event of a transaction. -/
structure Event where
  blockHeight : Height
  txHash : String
  eventType : String
  attributes : List Attribute
  deriving DecidableEq, Repr

/-- A block with the events of its transactions. -/
structure Block where
  height : Height
  events : List Event
  deriving DecidableEq, Repr

open Json (record required)

instance : Wire Attribute where
  toJson a := .obj [("key", .str a.key), ("value", .str a.value)]
  decode depth t := do
    let (d, [key, value]) ← record ["key", "value"] depth t | none
    return { key := ← required d key, value := ← required d value }

instance : Wire Event where
  toJson e := .obj [("block_height", Wire.toJson e.blockHeight), ("tx_hash", .str e.txHash),
    ("event_type", .str e.eventType), ("attributes", Wire.toJson e.attributes)]
  decode depth t := do
    let (d, [height, hash, type, attributes]) ←
      record ["block_height", "tx_hash", "event_type", "attributes"] depth t | none
    return {
      blockHeight := ← required d height
      txHash := ← required d hash
      eventType := ← required d type
      attributes := ← required d attributes }

instance : Wire Block where
  toJson b := .obj [("height", Wire.toJson b.height), ("events", Wire.toJson b.events)]
  decode depth t := do
    let (d, [height, events]) ← record ["height", "events"] depth t | none
    return { height := ← required d height, events := ← required d events }

end Attestor.Chain
