/-!
JSON trees. The same shape serves twice: `Json` is a document to be written, with integers and texts at
its leaves; `Read` is what a written document says, where a number that is no integer, or a text with an
unpaired surrogate, is well formed but has no value.
-/

namespace Attestor.Json

/-- A JSON tree with numbers `ν` and texts `σ`. Members of an object stand in written order. -/
inductive Tree (ν σ : Type) where
  | null
  | bool (b : Bool)
  | num (n : ν)
  | str (s : σ)
  | arr (items : List (Tree ν σ))
  | obj (members : List (σ × Tree ν σ))
  deriving Inhabited

/-- What a written document says. A leaf without a value is well formed all the same. -/
abbrev Read := Tree (Option Int) (Option String)

end Attestor.Json

namespace Attestor

/-- A JSON document to be written. -/
abbrev Json := Json.Tree Int String

end Attestor

namespace Attestor.Json

mutual
/-- The document as its own reading. -/
def read : Json → Read
  | .null => .null
  | .bool b => .bool b
  | .num n => .num (some n)
  | .str s => .str (some s)
  | .arr items => .arr (readItems items)
  | .obj members => .obj (readMembers members)

/-- Items as their own reading. -/
def readItems : List Json → List Read
  | [] => []
  | j :: js => read j :: readItems js

/-- Members as their own reading. -/
def readMembers : List (String × Json) → List (Option String × Read)
  | [] => []
  | (k, j) :: ms => (some k, read j) :: readMembers ms
end

end Attestor.Json
