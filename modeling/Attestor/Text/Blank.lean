/-!
Blank text. A character is blank when it has the Unicode property White_Space; a text is blank when
nothing is left of it after trimming, that is, when it holds blank characters only.
-/

namespace Attestor.Text

/-- The characters of the Unicode property White_Space. -/
def isBlankChar (c : Char) : Bool :=
  let n := c.toNat
  (0x09 ≤ n && n ≤ 0x0d) || n == 0x20 || n == 0x85 || n == 0xa0 || n == 0x1680 ||
    (0x2000 ≤ n && n ≤ 0x200a) || n == 0x2028 || n == 0x2029 || n == 0x202f || n == 0x205f ||
    n == 0x3000

/-- Drops the blank characters at both ends. -/
def trimChars (cs : List Char) : List Char :=
  ((cs.dropWhile isBlankChar).reverse.dropWhile isBlankChar).reverse

/-- The text without the blank characters at its ends. -/
def trim (s : String) : String :=
  String.ofList (trimChars s.toList)

/-- Nothing is left of the text after trimming. -/
def isBlank (s : String) : Bool :=
  (trimChars s.toList).isEmpty

/-- The text, unless it is blank. -/
def nonBlank (s : String) : Option String :=
  if isBlank s then none else some s

end Attestor.Text
