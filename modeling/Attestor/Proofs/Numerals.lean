import Attestor.Text.Number
import Mathlib.Data.List.TakeWhile
import Mathlib.Data.Nat.Digits.Defs

/-!
What the numbers in a text denote, said without reading them.

`Numeral cs n`: one or more ASCII digits, taken in base ten with the most significant first. `Unsigned` and `Signed`
add the sign that may stand before them, and `Padded` the blank characters that may stand on both sides. The readers
of `Attestor.Text.Number` find exactly these, as far as the word has room (`readNat_iff`, `readUInt64_iff`,
`readInt64_iff`), and trimming takes off exactly the padding (`padded_iff`).
-/

namespace Attestor.Text

/-! ### Digits -/

/-- What a digit counts. -/
def digitValue (c : Char) : Nat := c.toNat - '0'.toNat

/-- One or more ASCII digits, and the number that they denote. -/
structure Numeral (cs : List Char) (n : Nat) : Prop where
  some_digit : cs ≠ []
  digits : ∀ c ∈ cs, c.isDigit = true
  value : n = Nat.ofDigits 10 (cs.reverse.map digitValue)

theorem digit?_eq (c : Char) : digit? c = if c.isDigit = true then some (digitValue c) else none := rfl

/-- The digits seen before count ten times as much for each digit that follows. -/
theorem foldDigits_eq_some_iff {seen n : Nat} {cs : List Char} :
    foldDigits seen cs = some n ↔
      (∀ c ∈ cs, c.isDigit = true) ∧ n = Nat.ofDigits 10 (cs.reverse.map digitValue) + 10 ^ cs.length * seen := by
  induction cs generalizing seen with
  | nil => simp only [foldDigits, List.reverse_nil, List.map_nil, Nat.ofDigits_nil, List.length_nil, pow_zero,
      Nat.one_mul, Nat.zero_add, Option.some.injEq, List.not_mem_nil, false_implies, implies_true, true_and, eq_comm]
  | cons c cs ih =>
    simp only [foldDigits, Option.bind_eq_bind, digit?_eq]
    split
    next hc =>
      have hvalue : Nat.ofDigits 10 ((c :: cs).reverse.map digitValue) =
          Nat.ofDigits 10 (cs.reverse.map digitValue) + 10 ^ cs.length * digitValue c := by
        simp [Nat.ofDigits_append]
      have hshift : 10 ^ cs.length * (10 * seen + digitValue c) =
          10 ^ cs.length * digitValue c + 10 ^ (c :: cs).length * seen := by
        rw [List.length_cons, pow_succ]
        ring
      rw [Option.bind_some, ih, hvalue, hshift, ← Nat.add_assoc]
      simp [hc]
    next hc => simp [hc]

theorem digits?_eq_some_iff {cs : List Char} {n : Nat} : digits? cs = some n ↔ Numeral cs n := by
  cases cs with
  | nil => exact ⟨(nomatch ·), fun h => absurd rfl h.some_digit⟩
  | cons c cs =>
    change foldDigits 0 (c :: cs) = some n ↔ _
    rw [foldDigits_eq_some_iff, Nat.mul_zero, Nat.add_zero]
    exact ⟨fun ⟨digits, value⟩ => ⟨List.cons_ne_nil c cs, digits, value⟩, fun h => ⟨h.digits, h.value⟩⟩

/-! ### Signs -/

/-- A natural number, with a plus sign or without. -/
inductive Unsigned : List Char → Nat → Prop
  | bare {cs : List Char} {n : Nat} (numeral : Numeral cs n) : Unsigned cs n
  | plus {cs : List Char} {n : Nat} (numeral : Numeral cs n) : Unsigned ('+' :: cs) n

/-- An integer, with a sign or without. -/
inductive Signed : List Char → Int → Prop
  | positive {cs : List Char} {n : Nat} (unsigned : Unsigned cs n) : Signed cs n
  | negative {cs : List Char} {n : Nat} (numeral : Numeral cs n) : Signed ('-' :: cs) (-n)

section Signs

variable {cs : List Char} {n : Nat} {i : Int}

/-- A digit is no sign. -/
theorem Numeral.head_ne {c : Char} (h : Numeral (c :: cs) n) : c ≠ '+' ∧ c ≠ '-' := by
  have hc := h.digits c List.mem_cons_self
  constructor <;> rintro rfl <;> exact absurd hc (by decide)

theorem unsigned_plus : Unsigned ('+' :: cs) n ↔ Numeral cs n := by
  refine ⟨fun h => ?_, .plus⟩
  cases h with
  | bare numeral => exact absurd rfl numeral.head_ne.1
  | plus numeral => exact numeral

theorem unsigned_bare (hplus : ∀ rest, cs ≠ '+' :: rest) : Unsigned cs n ↔ Numeral cs n := by
  refine ⟨fun h => ?_, .bare⟩
  cases h with
  | bare numeral => exact numeral
  | plus _ => exact absurd rfl (hplus _)

theorem signed_plus : Signed ('+' :: cs) i ↔ ∃ n : Nat, Numeral cs n ∧ (n : Int) = i := by
  constructor
  · rintro ⟨unsigned⟩
    exact ⟨_, unsigned_plus.mp unsigned, rfl⟩
  · rintro ⟨n, numeral, rfl⟩
    exact .positive (.plus numeral)

theorem signed_minus : Signed ('-' :: cs) i ↔ ∃ n : Nat, Numeral cs n ∧ -(n : Int) = i := by
  constructor
  · intro h
    cases h with
    | positive unsigned => cases unsigned with
      | bare numeral => exact absurd rfl numeral.head_ne.2
    | negative numeral => exact ⟨_, numeral, rfl⟩
  · rintro ⟨n, numeral, rfl⟩
    exact .negative numeral

theorem signed_bare (hplus : ∀ rest, cs ≠ '+' :: rest) (hminus : ∀ rest, cs ≠ '-' :: rest) :
    Signed cs i ↔ ∃ n : Nat, Numeral cs n ∧ (n : Int) = i := by
  constructor
  · intro h
    cases h with
    | positive unsigned => exact ⟨_, (unsigned_bare hplus).mp unsigned, rfl⟩
    | negative _ => exact absurd rfl (hminus _)
  · rintro ⟨n, numeral, rfl⟩
    exact .positive (.bare numeral)

end Signs

/-! ### Readers -/

theorem readNat_iff {limit n : Nat} {s : String} : readNat limit s = some n ↔ Unsigned s.toList n ∧ n < limit := by
  have hread : ∀ cs, (digits? cs).bind (fun m => if m < limit then some m else none) = some n ↔
      Numeral cs n ∧ n < limit := by
    intro cs
    simp only [Option.bind_eq_some_iff, digits?_eq_some_iff, Option.ite_none_right_eq_some, Option.some.injEq]
    exact ⟨fun ⟨m, hm, hlt, hmn⟩ => hmn ▸ ⟨hm, hlt⟩, fun ⟨hn, hlt⟩ => ⟨n, hn, hlt, rfl⟩⟩
  unfold readNat
  split
  next cs heq => rw [heq, unsigned_plus, ← hread cs, Option.bind_eq_bind]
  next cs hplus => rw [unsigned_bare hplus, ← hread s.toList, Option.bind_eq_bind]

theorem readUInt64_iff {n : UInt64} {s : String} : readUInt64 s = some n ↔ Unsigned s.toList n.toNat := by
  simp only [readUInt64, Option.map_eq_some_iff, readNat_iff]
  constructor
  · rintro ⟨m, ⟨h, hlt⟩, rfl⟩
    rwa [UInt64.toNat_ofNat_of_lt' hlt]
  · exact fun h => ⟨n.toNat, ⟨h, n.toNat_lt⟩, UInt64.ofNat_toNat⟩

theorem readInt64_iff {n : Int64} {s : String} : readInt64 s = some n ↔ Signed s.toList n.toInt := by
  have hword : ∀ i : Int, (if -0x8000000000000000 ≤ i ∧ i < 0x8000000000000000 then some (Int64.ofInt i) else none) =
      some n ↔ i = n.toInt := by
    intro i
    rw [Option.ite_none_right_eq_some, Option.some.injEq]
    constructor
    · rintro ⟨⟨hlow, hhigh⟩, rfl⟩
      exact (Int64.toInt_ofInt_of_le hlow hhigh).symm
    · rintro rfl
      exact ⟨⟨n.le_toInt, n.toInt_lt⟩, Int64.ofInt_toInt n⟩
  unfold readInt64
  split
  next cs heq =>
    simp only [heq, signed_plus, Option.bind_eq_bind, Option.bind_eq_some_iff, Option.map_eq_some_iff, hword,
      digits?_eq_some_iff, exists_eq_right]
    rfl
  next cs heq =>
    simp only [heq, signed_minus, Option.bind_eq_bind, Option.bind_eq_some_iff, Option.map_eq_some_iff, hword,
      digits?_eq_some_iff, exists_eq_right]
    rfl
  next cs hplus hminus =>
    simp only [signed_bare hplus hminus, Option.bind_eq_bind, Option.bind_eq_some_iff, Option.map_eq_some_iff, hword,
      digits?_eq_some_iff, exists_eq_right]
    rfl

/-! ### Padding -/

/-- The text is these characters, with blank ones before and after, and no blank ones at their own ends. -/
structure Padded (text : String) (inner : List Char) : Prop where
  split : ∃ before after, text.toList = before ++ inner ++ after ∧
    (∀ c ∈ before, isBlankChar c = true) ∧ ∀ c ∈ after, isBlankChar c = true
  head : ∀ c ∈ inner.head?, isBlankChar c = false
  last : ∀ c ∈ inner.getLast?, isBlankChar c = false

theorem dropWhile_padding {p : Char → Bool} {padding inner : List Char} (hpadding : ∀ c ∈ padding, p c = true)
    (hinner : ∀ c ∈ inner.head?, p c = false) : (padding ++ inner).dropWhile p = inner := by
  rw [List.dropWhile_append_of_pos hpadding]
  cases inner with
  | nil => rfl
  | cons c rest => exact List.dropWhile_cons_of_neg (by simp [hinner c rfl])

theorem head_dropWhile {p : Char → Bool} {cs : List Char} : ∀ c ∈ (cs.dropWhile p).head?, p c = false := by
  intro c hc
  have h := List.head?_dropWhile_not p cs
  rw [Option.mem_def.mp hc] at h
  exact h

/-- A text is blank exactly when each of its characters is. -/
theorem isBlank_iff {s : String} : isBlank s = true ↔ ∀ c ∈ s.toList, isBlankChar c = true := by
  rw [isBlank, trimChars, List.isEmpty_iff, List.reverse_eq_nil_iff, List.dropWhile_eq_nil_iff]
  simp only [List.mem_reverse]
  refine ⟨fun h => List.dropWhile_eq_nil_iff.mp ?_, fun h c hc => h c (List.dropWhile_subset _ hc)⟩
  cases hd : s.toList.dropWhile isBlankChar with
  | nil => rfl
  | cons c cs =>
    have hblank : isBlankChar c = true := h c (by rw [hd]; exact List.mem_cons_self ..)
    have hnot : isBlankChar c = false := head_dropWhile c (by rw [hd]; rfl)
    rw [hblank] at hnot
    cases hnot

/-- What trimming leaves, and no other text, is padded to the whole. -/
theorem padded_iff {text : String} {inner : List Char} : Padded text inner ↔ (trim text).toList = inner := by
  rw [trim, String.toList_ofList]
  constructor
  · rintro ⟨⟨before, after, htext, hbefore, hafter⟩, hhead, hlast⟩
    cases inner with
    | nil =>
      have hblank : isBlank text = true := isBlank_iff.mpr fun c hc => by
        rw [htext, List.append_nil, List.mem_append] at hc
        exact hc.elim (hbefore c) (hafter c)
      exact List.isEmpty_iff.mp hblank
    | cons c rest =>
      have hfront : text.toList.dropWhile isBlankChar = c :: rest ++ after := by
        rw [htext, List.append_assoc]
        exact dropWhile_padding hbefore hhead
      have hback : (c :: rest ++ after).reverse.dropWhile isBlankChar = (c :: rest).reverse := by
        rw [List.reverse_append]
        exact dropWhile_padding (by simpa using hafter) (by rwa [List.head?_reverse])
      rw [trimChars, hfront, hback, List.reverse_reverse]
  · rintro rfl
    have hsplit : text.toList.dropWhile isBlankChar = trimChars text.toList ++
        ((text.toList.dropWhile isBlankChar).reverse.takeWhile isBlankChar).reverse := by
      rw [trimChars, ← List.reverse_append, List.takeWhile_append_dropWhile, List.reverse_reverse]
    refine ⟨⟨text.toList.takeWhile isBlankChar,
      ((text.toList.dropWhile isBlankChar).reverse.takeWhile isBlankChar).reverse, ?_, fun c => List.mem_takeWhile_imp,
      fun c hc => ?_⟩, ?_, ?_⟩
    · rw [List.append_assoc, ← hsplit, List.takeWhile_append_dropWhile]
    · exact List.mem_takeWhile_imp (List.mem_reverse.mp hc)
    · intro c hc
      refine (head_dropWhile : ∀ c ∈ (text.toList.dropWhile isBlankChar).head?, _) c ?_
      rw [hsplit, List.head?_append, Option.mem_def.mp hc]
      rfl
    · rw [trimChars, List.getLast?_reverse]
      exact head_dropWhile

end Attestor.Text
