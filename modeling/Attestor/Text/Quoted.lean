import Attestor.Text.Hidden

/-!
Text and characters in quotes, for people to read. The quote in use, the backslash, NUL, tab, line feed and
carriage return are escaped by a letter or by themselves; characters that do not show are written as their
code point in braces.
-/

namespace Attestor.Text.Quoted

/-- A code point in lower-case hexadecimal, in braces. -/
def codePoint (c : Char) : List Char :=
  ['\\', 'u', '\x7b'] ++ Nat.toDigits 16 c.toNat ++ ['\x7d']

/-- A character inside quotes of the given kind. -/
def escape (mark : Char) (c : Char) : List Char :=
  if c = '\x00' then ['\\', '0']
  else if c = '\t' then ['\\', 't']
  else if c = '\r' then ['\\', 'r']
  else if c = '\n' then ['\\', 'n']
  else if c = '\\' then ['\\', '\\']
  else if c = mark then ['\\', mark]
  else if isHidden c then codePoint c
  else [c]

/-- A text in double quotes. -/
def string (s : String) : String :=
  String.ofList ('"' :: (s.toList.flatMap (escape '"') ++ ['"']))

/-- A character in single quotes. -/
def char (c : Char) : String :=
  String.ofList ('\'' :: (escape '\'' c ++ ['\'']))

end Attestor.Text.Quoted
