import Attestor.Text.Blank

/-!
Numbers written in decimal. A number is an optional sign and one or more ASCII digits, and must lie
in the range of the word that it is read into; a natural number takes no minus sign. Writing gives the
shortest form, without sign or leading zeros, and reading undoes it.
-/

namespace Attestor.Text

/-- The value of a digit. -/
def digit? (c : Char) : Option Nat :=
  if '0' ≤ c && c ≤ '9' then some (c.toNat - '0'.toNat) else none

/-- The number that the digits denote when `seen` stands before them. -/
def foldDigits (seen : Nat) : List Char → Option Nat
  | [] => some seen
  | c :: cs => do foldDigits (10 * seen + (← digit? c)) cs

/-- One or more digits. -/
def digits? : List Char → Option Nat
  | [] => none
  | cs => foldDigits 0 cs

/-- The digits of a number, without leading zeros. -/
def decimal (n : Nat) : List Char :=
  if n < 10 then [Nat.digitChar n] else decimal (n / 10) ++ [Nat.digitChar (n % 10)]

theorem digit?_digitChar : ∀ n < 10, digit? (Nat.digitChar n) = some n := by
  decide

private theorem foldDigits_append {seen n : Nat} {cs ds : List Char}
    (h : foldDigits seen cs = some n) : foldDigits seen (cs ++ ds) = foldDigits n ds := by
  induction cs generalizing seen with
  | nil => simp_all [foldDigits]
  | cons c cs ih =>
    simp only [List.cons_append, foldDigits, Option.bind_eq_bind] at h ⊢
    cases hd : digit? c with
    | none => simp [hd] at h
    | some d => simp only [hd, Option.bind_some] at h ⊢; exact ih h

private theorem foldDigits_decimal (n : Nat) : foldDigits 0 (decimal n) = some n := by
  induction n using Nat.strongRecOn with
  | _ n ih =>
    unfold decimal
    split
    next h => simp [foldDigits, digit?_digitChar n h]
    next h =>
      rw [foldDigits_append (ih (n / 10) (by omega))]
      have hd := digit?_digitChar (n % 10) (Nat.mod_lt n (by decide))
      simp only [foldDigits, hd, Option.bind_eq_bind, Option.bind_some, Option.some.injEq]
      omega

/-- A written number has at least one digit. -/
theorem decimal_ne_nil (n : Nat) : decimal n ≠ [] := by
  unfold decimal
  split <;> simp

/-- Reading undoes writing. -/
theorem digits?_decimal (n : Nat) : digits? (decimal n) = some n := by
  have h := foldDigits_decimal n
  cases hc : decimal n with
  | nil => exact absurd hc (decimal_ne_nil n)
  | cons c cs => rw [hc] at h; exact h

/-- A natural number below `limit`, with an optional plus sign. -/
def readNat (limit : Nat) (s : String) : Option Nat := do
  let n ← match s.toList with
    | '+' :: cs => digits? cs
    | cs => digits? cs
  if n < limit then some n else none

/-- A natural number in 64 bits. -/
def readUInt64 (s : String) : Option UInt64 :=
  (readNat UInt64.size s).map UInt64.ofNat

/-- An integer in 64 bits, with an optional sign. -/
def readInt64 (s : String) : Option Int64 := do
  let i ← match s.toList with
    | '+' :: cs => (digits? cs).map Int.ofNat
    | '-' :: cs => (digits? cs).map fun n => -(Int.ofNat n)
    | cs => (digits? cs).map Int.ofNat
  if -0x8000000000000000 ≤ i ∧ i < 0x8000000000000000 then some (Int64.ofInt i) else none

end Attestor.Text
