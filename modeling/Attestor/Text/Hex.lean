/-!
Bytes in hexadecimal, two digits each. Writing has a lower-case and an upper-case form; reading takes
both and reports the first byte of the text that is no digit.
-/

namespace Attestor.Text.Hex

/-- Why a text is not hexadecimal. -/
inductive Error where
  /-- The text has an odd number of bytes. -/
  | oddLength
  /-- The byte at this place is no digit. -/
  | badByte (byte : UInt8) (position : Nat)
  deriving DecidableEq, Repr

/-- The lower-case digit of a value below 16. -/
def lowerDigit (n : Nat) : Char :=
  Char.ofNat (if n < 10 then 48 + n else 87 + n)

/-- The upper-case digit of a value below 16. -/
def upperDigit (n : Nat) : Char :=
  Char.ofNat (if n < 10 then 48 + n else 55 + n)

/-- Each byte as two digits, the high half first. -/
def encodeWith (digit : Nat → Char) (bytes : List UInt8) : String :=
  String.ofList (bytes.flatMap fun b => [digit (b.toNat / 16), digit (b.toNat % 16)])

/-- Bytes in lower-case digits. -/
def encode : List UInt8 → String :=
  encodeWith lowerDigit

/-- Bytes in upper-case digits. -/
def encodeUpper : List UInt8 → String :=
  encodeWith upperDigit

/-- The value of a digit of either case. -/
def digit? (b : UInt8) : Option Nat :=
  let n := b.toNat
  if 48 ≤ n && n ≤ 57 then some (n - 48)
  else if 97 ≤ n && n ≤ 102 then some (n - 87)
  else if 65 ≤ n && n ≤ 70 then some (n - 55)
  else none

/-- Reads digits in pairs; `position` is the place of the first of them. -/
def decodePairs (position : Nat) : List UInt8 → Except Error (List UInt8)
  | [] => .ok []
  | [_] => .error .oddLength
  | high :: low :: rest =>
    match digit? high with
    | none => .error (.badByte high position)
    | some h =>
      match digit? low with
      | none => .error (.badByte low (position + 1))
      | some l => (decodePairs (position + 2) rest).map (UInt8.ofNat (16 * h + l) :: ·)

/-- Reads a text in hexadecimal. That its length is odd is reported before any bad byte. -/
def decode (bytes : List UInt8) : Except Error (List UInt8) :=
  if bytes.length % 2 = 1 then .error .oddLength else decodePairs 0 bytes

end Attestor.Text.Hex
