import Attestor.Json.Canonical
import Attestor.Json.Parser

/-!
From what a text says to typed values, and back. A type with a form in JSON is an instance of `Wire`.

A record is an object that has each of its fields at most once, in any order and beside others, or an
array of exactly its fields in order. An optional field may be absent or null. A name alone stands for a
choice without content, and so does an object that maps it to null; a choice with content is an object with
its name as the only key. Values that are looked into may nest to 127 levels; what is passed over may be
anything well formed.
-/

namespace Attestor.Json

/-- Reads a value out of what a text says. The number tells how many levels may still nest. -/
abbrev Decoder (α : Type) := Nat → Read → Option α

/-- Levels that values may nest to. -/
def maxDepth : Nat := 127

end Attestor.Json

namespace Attestor

/-- A type with a form in JSON. -/
class Wire (α : Type) where
  toJson : α → Json
  decode : Json.Decoder α

/-- The text of a value. -/
def Wire.toText {α : Type} [Wire α] (a : α) : String :=
  Json.print (Wire.toJson a)

/-- The value that a text stands for. -/
def Wire.ofText {α : Type} [Wire α] (s : String) : Option α := do
  Wire.decode Json.maxDepth (← Json.parse s)

end Attestor

namespace Attestor.Json

/-! ### Plain values -/

def decodeString : Decoder String
  | _, .str s => s
  | _, _ => none

def decodeBool : Decoder Bool
  | _, .bool b => some b
  | _, _ => none

/-- A natural number below `limit`. -/
def decodeNat (limit : Nat) : Decoder Nat
  | _, .num (some (.ofNat n)) => if n < limit then some n else none
  | _, _ => none

instance : Wire String := ⟨.str, decodeString⟩

instance : Wire Bool := ⟨.bool, decodeBool⟩

instance : Wire UInt64 where
  toJson n := .num n.toNat
  decode depth t := (decodeNat UInt64.size depth t).map UInt64.ofNat

instance : Wire UInt32 where
  toJson n := .num n.toNat
  decode depth t := (decodeNat UInt32.size depth t).map UInt32.ofNat

/-! ### Lists and optional values -/

/-- Applies a decoder to each item. -/
def decodeItems {α : Type} (decode : Read → Option α) : List Read → Option (List α)
  | [] => some []
  | t :: ts => do return (← decode t) :: (← decodeItems decode ts)

def decodeList {α : Type} (decode : Decoder α) : Decoder (List α)
  | depth + 1, .arr items => decodeItems (decode depth) items
  | _, _ => none

/-- Null stands for no value. -/
def decodeOption {α : Type} (decode : Decoder α) : Decoder (Option α)
  | _, .null => some none
  | depth, t => (decode depth t).map some

instance {α : Type} [Wire α] : Wire (List α) where
  toJson xs := .arr (xs.map Wire.toJson)
  decode := decodeList Wire.decode

instance {α : Type} [Wire α] : Wire (Option α) where
  toJson
    | none => .null
    | some a => Wire.toJson a
  decode := decodeOption Wire.decode

/-! ### Records -/

/-- What an object says of a field: nothing, or one value. A repeated field is refused. -/
def field? (members : List (Option String × Read)) (name : String) : Option (Option Read) :=
  match members.filter fun m => m.1 == some name with
  | [] => some none
  | [m] => some (some m.2)
  | _ => none

/-- The fields of a record in the order of `names`. -/
def fields? (members : List (Option String × Read)) : List String → Option (List (Option Read))
  | [] => some []
  | name :: names => do return (← field? members name) :: (← fields? members names)

/-- The levels left and the fields of a record. -/
def record (names : List String) : Nat → Read → Option (Nat × List (Option Read))
  | depth + 1, .arr items =>
    if items.length = names.length then some (depth, items.map some) else none
  | depth + 1, .obj members =>
    if members.all (·.1.isSome) then (fields? members names).map (depth, ·) else none
  | _, _ => none

/-- A field that has to be there. -/
def required {α : Type} [Wire α] (depth : Nat) (field : Option Read) : Option α := do
  Wire.decode depth (← field)

/-- A field that may be absent. -/
def optional {α : Type} [Wire α] (depth : Nat) : Option Read → Option (Option α)
  | none => some none
  | some t => Wire.decode depth t

/-! ### Choices -/

/-- A choice without content: its name, or an object that maps its name to null. -/
def decodeName {α : Type} (named : String → Option α) : Decoder α
  | _, .str s => s.bind named
  | _ + 1, .obj [(key, .null)] => key.bind named
  | _, _ => none

/-- The name and the content of a choice. -/
def choice : Nat → Read → Option (Nat × String × Read)
  | depth + 1, .obj [(some key, content)] => some (depth, key, content)
  | _, _ => none

/-! ### Free documents -/

mutual
/-- A document as it stands, if each of its leaves has a value and it nests to no more than `depth`. -/
def decodeFree : Nat → Read → Option Json
  | _, .null => some .null
  | _, .bool b => some (.bool b)
  | _, .num n => n.map .num
  | _, .str s => s.map .str
  | depth + 1, .arr items => (decodeFreeItems depth items).map .arr
  | depth + 1, .obj members => (decodeFreeMembers depth members).map .obj
  | 0, .arr _ => none
  | 0, .obj _ => none

/-- Items as they stand. -/
def decodeFreeItems : Nat → List Read → Option (List Json)
  | _, [] => some []
  | depth, t :: ts => do return (← decodeFree depth t) :: (← decodeFreeItems depth ts)

/-- Members as they stand. -/
def decodeFreeMembers : Nat → List (Option String × Read) → Option (List (String × Json))
  | _, [] => some []
  | depth, (k, t) :: ms => do
    return (← k, ← decodeFree depth t) :: (← decodeFreeMembers depth ms)
end

instance : Wire Document where
  toJson d := d.json
  decode depth t := do Document.ofJson? (← decodeFree depth t)

end Attestor.Json
