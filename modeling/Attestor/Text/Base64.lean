/-!
Bytes in base64, with the standard alphabet. Each group of three bytes is four symbols; a last group of
one or two bytes is two or three symbols and padding. The unused low bits of its last symbol are zero.

Reading under `Padding.required` accepts what writing produces and nothing else. Under
`Padding.optional` the last group may also lack some or all of its padding.
-/

namespace Attestor.Text.Base64

/-- Whether a last group has to be padded to four symbols. -/
inductive Padding where
  | required
  | optional
  deriving DecidableEq, Repr

/-- The symbol of a value below 64. -/
def symbol (n : Nat) : Char :=
  if n < 26 then Char.ofNat (65 + n)
  else if n < 52 then Char.ofNat (71 + n)
  else if n < 62 then Char.ofNat (n - 4)
  else if n = 62 then '+'
  else '/'

/-- The value of a symbol. -/
def value? (c : Char) : Option Nat :=
  let n := c.toNat
  if 65 ≤ n && n ≤ 90 then some (n - 65)
  else if 97 ≤ n && n ≤ 122 then some (n - 71)
  else if 48 ≤ n && n ≤ 57 then some (n + 4)
  else if c == '+' then some 62
  else if c == '/' then some 63
  else none

/-- Writes bytes with padding. -/
def encode : List UInt8 → List Char
  | [] => []
  | [a] =>
    let n := a.toNat * 16
    [symbol (n / 64), symbol (n % 64), '=', '=']
  | [a, b] =>
    let n := (a.toNat * 256 + b.toNat) * 4
    [symbol (n / 4096), symbol (n / 64 % 64), symbol (n % 64), '=']
  | a :: b :: c :: rest =>
    let n := (a.toNat * 256 + b.toNat) * 256 + c.toNat
    symbol (n / 262144) :: symbol (n / 4096 % 64) :: symbol (n / 64 % 64) :: symbol (n % 64) ::
      encode rest

/-- A last group of two symbols, one byte. -/
def last2 (a b : Char) : Option (List UInt8) := do
  let n := (← value? a) * 64 + (← value? b)
  if n % 16 = 0 then some [UInt8.ofNat (n / 16)] else none

/-- A last group of three symbols, two bytes. -/
def last3 (a b c : Char) : Option (List UInt8) := do
  let n := ((← value? a) * 64 + (← value? b)) * 64 + (← value? c)
  if n % 4 = 0 then some [UInt8.ofNat (n / 1024), UInt8.ofNat (n / 4 % 256)] else none

/-- A whole group of four symbols, three bytes. -/
def group (a b c d : Char) : Option (List UInt8) := do
  let n := (((← value? a) * 64 + (← value? b)) * 64 + (← value? c)) * 64 + (← value? d)
  some [UInt8.ofNat (n / 65536), UInt8.ofNat (n / 256 % 256), UInt8.ofNat (n % 256)]

/-- Reads bytes under the given rule for padding. -/
def decode (padding : Padding) : List Char → Option (List UInt8)
  | [] => some []
  | [a, b, '=', '='] => last2 a b
  | [a, b, c, '='] => last3 a b c
  | a :: b :: c :: d :: rest => do
    let bytes ← group a b c d
    return bytes ++ (← decode padding rest)
  | [a, b, '='] => if padding = .optional then last2 a b else none
  | [a, b, c] => if padding = .optional then last3 a b c else none
  | [a, b] => if padding = .optional then last2 a b else none
  | _ => none

/-- The base64 form of a text, over its UTF-8 bytes. -/
def encodeText (s : String) : String :=
  String.ofList (encode s.toUTF8.data.toList)

/-- Reads a text from its base64 form: padding is required and the bytes must be UTF-8. -/
def decodeText (s : String) : Option String := do
  String.fromUTF8? ⟨(← decode .required s.toList).toArray⟩

end Attestor.Text.Base64
