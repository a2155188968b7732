import Attestor.Json.Tree
import Attestor.Text.Number

/-!
Reading JSON. The grammar is the strict one: no comments, no trailing commas, no leading zeros, no
control characters in texts, nothing after the document but blanks.

Every well-formed document is read. A number with a fraction or an exponent, the number -0, and a text in
which a surrogate escape has no partner are well formed; they are read as leaves without a value.
-/

namespace Attestor.Json

/-- Drops leading blanks: space, tab, line feed and carriage return. -/
def skip : List Char → List Char
  | [] => []
  | c :: cs => if c = ' ' ∨ c = '\n' ∨ c = '\t' ∨ c = '\r' then skip cs else c :: cs

/-- The value of a hexadecimal digit of either case. -/
def hexDigit? (c : Char) : Option Nat :=
  let n := c.toNat
  if 48 ≤ n && n ≤ 57 then some (n - 48)
  else if 97 ≤ n && n ≤ 102 then some (n - 87)
  else if 65 ≤ n && n ≤ 70 then some (n - 55)
  else none

/-- The value of four hexadecimal digits. -/
def hex4? (a b c d : Char) : Option Nat := do
  return (((← hexDigit? a) * 16 + (← hexDigit? b)) * 16 + (← hexDigit? c)) * 16 + (← hexDigit? d)

/-- The character of a code unit that stands alone, if it is no surrogate. -/
def loneUnit (n : Nat) : Option Char :=
  if 0xd800 ≤ n ∧ n < 0xe000 then none else some (Char.ofNat n)

/-- The character of a pair of surrogates. -/
def pairUnits (high low : Nat) : Option Char :=
  if 0xd800 ≤ high ∧ high < 0xdc00 ∧ 0xdc00 ≤ low ∧ low < 0xe000 then
    some (Char.ofNat (0x10000 + (high - 0xd800) * 0x400 + (low - 0xdc00)))
  else none

/-- The character of an escape by letter. -/
def letterEscape? (c : Char) : Option Char :=
  if c = '"' then some '"'
  else if c = '\\' then some '\\'
  else if c = '/' then some '/'
  else if c = 'b' then some '\x08'
  else if c = 'f' then some '\x0c'
  else if c = 'n' then some '\n'
  else if c = 'r' then some '\r'
  else if c = 't' then some '\t'
  else none

/-- A character in front of a text read so far; either may lack a value. -/
def consChar (c : Option Char) (text : Option (List Char)) : Option (List Char) := do
  return (← c) :: (← text)

/-- The rest of a text after its opening quote, and what follows its closing quote. -/
def textBody : List Char → Option (Option (List Char) × List Char)
  | [] => none
  | '"' :: rest => some (some [], rest)
  | '\\' :: 'u' :: a :: b :: c :: d :: '\\' :: 'u' :: a' :: b' :: c' :: d' :: rest => do
    let high ← hex4? a b c d
    match (hex4? a' b' c' d').bind (pairUnits high) with
    | some ch =>
      let (text, after) ← textBody rest
      return (consChar (some ch) text, after)
    | none =>
      let (text, after) ← textBody ('\\' :: 'u' :: a' :: b' :: c' :: d' :: rest)
      return (consChar (loneUnit high) text, after)
  | '\\' :: 'u' :: a :: b :: c :: d :: rest => do
    let n ← hex4? a b c d
    let (text, after) ← textBody rest
    return (consChar (loneUnit n) text, after)
  | '\\' :: c :: rest => do
    let ch ← letterEscape? c
    let (text, after) ← textBody rest
    return (consChar (some ch) text, after)
  | c :: rest =>
    if c.toNat < 32 ∨ c = '\\' then none
    else do
      let (text, after) ← textBody rest
      return (consChar (some c) text, after)

/-- A text after its opening quote. -/
def text (cs : List Char) : Option (Option String × List Char) := do
  let (value, rest) ← textBody cs
  return (value.map String.ofList, rest)

/-- Digits and what follows them. -/
def spanDigits (cs : List Char) : List Char × List Char :=
  cs.span fun c => (Text.digit? c).isSome

/-- An exponent, if there is one: whether there was, and what follows. -/
def exponent : List Char → Option (Bool × List Char)
  | [] => some (false, [])
  | e :: cs =>
    if e = 'e' ∨ e = 'E' then
      let unsigned := match cs with
        | '+' :: r => r
        | '-' :: r => r
        | r => r
      match spanDigits unsigned with
      | ([], _) => none
      | (_, rest) => some (true, rest)
    else some (false, e :: cs)

/-- A fraction and an exponent, if there are any: whether there were, and what follows. -/
def fraction : List Char → Option (Bool × List Char)
  | '.' :: cs =>
    match spanDigits cs with
    | ([], _) => none
    | (_, rest) => (exponent rest).map fun p => (true, p.2)
  | cs => exponent cs

/-- A number without its sign: its value if it is an integer, and what follows. -/
def magnitude (cs : List Char) : Option (Option Nat × List Char) :=
  match spanDigits cs with
  | ([], _) => none
  | ('0' :: _ :: _, _) => none
  | (ds, rest) => do
    let (inexact, after) ← fraction rest
    return (if inexact then none else Text.digits? ds, after)

/-- A number: its value if it is an integer other than -0, and what follows. -/
def number : List Char → Option (Option Int × List Char)
  | '-' :: cs => do
    let (n, rest) ← magnitude cs
    return (n.bind fun n => if n = 0 then none else some (-(Int.ofNat n)), rest)
  | cs => do
    let (n, rest) ← magnitude cs
    return (n.map Int.ofNat, rest)

mutual
/-- A value, after blanks, and what follows it. -/
def value : Nat → List Char → Option (Read × List Char)
  | 0, _ => none
  | fuel + 1, cs =>
    match skip cs with
    | 'n' :: 'u' :: 'l' :: 'l' :: rest => some (.null, rest)
    | 't' :: 'r' :: 'u' :: 'e' :: rest => some (.bool true, rest)
    | 'f' :: 'a' :: 'l' :: 's' :: 'e' :: rest => some (.bool false, rest)
    | '"' :: rest => (text rest).map fun p => (.str p.1, p.2)
    | '[' :: rest =>
      match skip rest with
      | ']' :: after => some (.arr [], after)
      | _ => (items fuel rest).map fun p => (.arr p.1, p.2)
    | '\x7b' :: rest =>
      match skip rest with
      | '\x7d' :: after => some (.obj [], after)
      | _ => (members fuel rest).map fun p => (.obj p.1, p.2)
    | other => (number other).map fun p => (.num p.1, p.2)

/-- One or more items up to the closing bracket. -/
def items : Nat → List Char → Option (List Read × List Char)
  | 0, _ => none
  | fuel + 1, cs => do
    let (item, rest) ← value fuel cs
    match skip rest with
    | ',' :: rest => (items fuel rest).map fun p => (item :: p.1, p.2)
    | ']' :: rest => some ([item], rest)
    | _ => none

/-- One or more members up to the closing brace. -/
def members : Nat → List Char → Option (List (Option String × Read) × List Char)
  | 0, _ => none
  | fuel + 1, cs =>
    match skip cs with
    | '"' :: rest => do
      let (key, rest) ← text rest
      match skip rest with
      | ':' :: rest => do
        let (item, rest) ← value fuel rest
        match skip rest with
        | ',' :: rest => (members fuel rest).map fun p => ((key, item) :: p.1, p.2)
        | '\x7d' :: rest => some ([(key, item)], rest)
        | _ => none
      | _ => none
    | _ => none
end

/-- Reads a whole text as one document. Each nested value takes two steps and at least one character,
which bounds the recursion. -/
def parse (s : String) : Option Read := do
  let cs := s.toList
  let (tree, rest) ← value (2 * cs.length + 2) cs
  if (skip rest).isEmpty then some tree else none

end Attestor.Json
