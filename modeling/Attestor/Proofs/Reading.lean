import Attestor.Json.Parser
import Attestor.Json.Printer
import Mathlib.Data.List.TakeDrop

/-!
Reading back what was printed.

`value_chars`: in front of anything that does not go on with a number, the parser takes exactly the
characters of a document and returns the document. `parse_print` is the same of a whole text, and
`print_injective` follows: two documents with one text are one document.

Each level of nesting costs the parser two steps, and each item or member in a row one more, so twice
the length of the text is fuel enough.
-/

namespace Attestor.Json

open Text (decimal digit? digits?)

/-! ### Texts -/

theorem hex4?_units : ∀ n < 32, hex4? '0' '0' (hexChar (n / 16)) (hexChar (n % 16)) = some n := by
  decide +kernel

/-- Characters below U+0020 are no surrogates, so the unit of one never pairs with the next. -/
theorem pairUnits_control {n m : Nat} (h : n < 32) : pairUnits n m = none := by
  have hn : ¬ 0xd800 ≤ n := by omega
  simp [pairUnits, hn]

theorem loneUnit_toNat {c : Char} (h : c.toNat < 32) : loneUnit c.toNat = some c := by
  have hn : ¬ 0xd800 ≤ c.toNat := by omega
  simp [loneUnit, hn]

theorem textBody_unit {n : Nat} {a b c d : Char} (rest : List Char) (hx : hex4? a b c d = some n)
    (hn : n < 32) :
    textBody ('\\' :: 'u' :: a :: b :: c :: d :: rest) =
      (textBody rest).map fun p => (consChar (loneUnit n) p.1, p.2) := by
  -- another escape may follow, which the parser would take for the second half of a pair
  by_cases hr : ∃ a' b' c' d' rest', rest = '\\' :: 'u' :: a' :: b' :: c' :: d' :: rest'
  · obtain ⟨a', b', c', d', rest', rfl⟩ := hr
    have hp : (hex4? a' b' c' d').bind (pairUnits n) = none := by
      cases hex4? a' b' c' d' with
      | none => rfl
      | some m => exact pairUnits_control hn
    rw [textBody]
    simp only [hx, hp, Option.bind_eq_bind, Option.bind_some]
    cases textBody ('\\' :: 'u' :: a' :: b' :: c' :: d' :: rest') <;> rfl
  · rw [textBody]
    · simp only [hx, Option.bind_eq_bind, Option.bind_some]
      cases textBody rest <;> rfl
    · intro a' b' c' d' rest' he
      exact hr ⟨a', b', c', d', rest', he⟩

theorem textBody_letter {l c : Char} (rest : List Char) (hl : letterEscape? l = some c) :
    textBody ('\\' :: l :: rest) = (textBody rest).map fun p => (consChar (some c) p.1, p.2) := by
  have hu : l ≠ 'u' := by
    rintro rfl
    simp [letterEscape?] at hl
  rw [textBody]
  · simp only [hl, Option.bind_eq_bind, Option.bind_some]
    cases textBody rest <;> rfl
  all_goals
    intros
    exact hu ‹_›

theorem textBody_plain {c : Char} (rest : List Char) (hq : c ≠ '"') (hb : c ≠ '\\')
    (hc : ¬ c.toNat < 32) :
    textBody (c :: rest) = (textBody rest).map fun p => (consChar (some c) p.1, p.2) := by
  rw [textBody]
  · simp only [hc, hb, or_self, if_false]
    cases textBody rest <;> rfl
  · exact hq
  all_goals
    intros
    exact hb ‹_›

/-- The characters with an escape of their own are read back from its letter. -/
theorem escape_letter : ∀ c ∈ ['"', '\\', '\x08', '\x0c', '\n', '\r', '\t'],
    ∃ l, escape c = ['\\', l] ∧ letterEscape? l = some c := by
  simp [escape, letterEscape?]

/-- What one character is written as is read as that character. -/
theorem textBody_escape (c : Char) (rest : List Char) :
    textBody (escape c ++ rest) = (textBody rest).map fun p => (consChar (some c) p.1, p.2) := by
  by_cases hl : c ∈ ['"', '\\', '\x08', '\x0c', '\n', '\r', '\t']
  · obtain ⟨l, he, hr⟩ := escape_letter c hl
    rw [he]
    exact textBody_letter rest hr
  · simp only [List.mem_cons, List.not_mem_nil, or_false, not_or] at hl
    by_cases hc : c.toNat < 32
    · have hu := textBody_unit rest (hex4?_units _ hc) hc
      rw [loneUnit_toNat hc] at hu
      simpa [escape, hl, hc] using hu
    · have he : escape c = [c] := by simp [escape, hl, hc]
      rw [he]
      exact textBody_plain rest hl.1 hl.2.1 hc

theorem textBody_escapes (cs rest : List Char) :
    textBody (cs.flatMap escape ++ '"' :: rest) = some (some cs, rest) := by
  induction cs with
  | nil => rfl
  | cons c cs ih =>
    rw [List.flatMap_cons, List.append_assoc, textBody_escape, ih]
    rfl

/-- A text in quotes is read back. -/
theorem text_quote (s : String) (rest : List Char) :
    text (s.toList.flatMap escape ++ '"' :: rest) = some (some s, rest) := by
  simp [text, textBody_escapes]

/-! ### Numbers -/

/-- What may stand after a document: nothing that a number could go on with. -/
def Ends (rest : List Char) : Prop :=
  ∀ c ∈ rest.head?, digit? c = none ∧ c ≠ '.' ∧ c ≠ 'e' ∧ c ≠ 'E'

theorem ends_nil : Ends [] := by
  simp [Ends]

theorem ends_comma (rest : List Char) : Ends (',' :: rest) := by
  simp [Ends, digit?]

theorem ends_bracket (rest : List Char) : Ends (']' :: rest) := by
  simp [Ends, digit?]

theorem ends_brace (rest : List Char) : Ends ('\x7d' :: rest) := by
  simp [Ends, digit?]

theorem digit?_decimal {n : Nat} : ∀ c ∈ decimal n, (digit? c).isSome := by
  induction n using Nat.strongRecOn with
  | _ n ih =>
    intro c hc
    unfold decimal at hc
    split at hc
    next h =>
      rw [List.mem_singleton] at hc
      simp [hc, Text.digit?_digitChar n h]
    next h =>
      rcases List.mem_append.1 hc with hc | hc
      · exact ih (n / 10) (by omega) c hc
      · rw [List.mem_singleton] at hc
        simp [hc, Text.digit?_digitChar (n % 10) (Nat.mod_lt n (by decide))]

/-- Only zero is written with a zero in front. -/
theorem decimal_eq_zero_cons {n : Nat} {cs : List Char} (h : decimal n = '0' :: cs) : cs = [] := by
  induction n using Nat.strongRecOn generalizing cs with
  | _ n ih =>
    unfold decimal at h
    split at h
    next => simp_all
    next hn =>
      cases hd : decimal (n / 10) with
      | nil => exact absurd hd (Text.decimal_ne_nil _)
      | cons c ds =>
        simp only [hd, List.cons_append, List.cons.injEq] at h
        obtain ⟨rfl, -⟩ := h
        have hz := Text.digits?_decimal (n / 10)
        rw [hd, ih (n / 10) (by omega) hd] at hz
        have h0 : n / 10 = 0 := by simpa [digits?, Text.foldDigits, digit?] using hz.symm
        omega

theorem spanDigits_append {ds rest : List Char} (hd : ∀ c ∈ ds, (digit? c).isSome) (hr : Ends rest) :
    spanDigits (ds ++ rest) = (ds, rest) := by
  rw [spanDigits, List.span_eq_takeWhile_dropWhile]
  have ht : rest.takeWhile (fun c => (digit? c).isSome) = [] := by
    cases rest with
    | nil => rfl
    | cons c cs => simp [(hr c rfl).1]
  have hw : rest.dropWhile (fun c => (digit? c).isSome) = rest := by
    cases rest with
    | nil => rfl
    | cons c cs => simp [(hr c rfl).1]
  rw [List.takeWhile_append_of_pos hd, List.dropWhile_append_of_pos hd, ht, hw, List.append_nil]

theorem fraction_of_ends {rest : List Char} (h : Ends rest) : fraction rest = some (false, rest) := by
  cases rest with
  | nil => rfl
  | cons c cs =>
    obtain ⟨-, hp, he, hE⟩ := h c rfl
    rw [fraction]
    · simp [exponent, he, hE]
    · intro _ hc
      exact hp (List.cons.inj hc).1

theorem magnitude_decimal (n : Nat) {rest : List Char} (h : Ends rest) :
    magnitude (decimal n ++ rest) = some (some n, rest) := by
  rw [magnitude, spanDigits_append digit?_decimal h]
  split
  next hd => exact absurd (congrArg Prod.fst hd) (Text.decimal_ne_nil n)
  next hd => exact absurd (decimal_eq_zero_cons (congrArg Prod.fst hd)) (List.cons_ne_nil _ _)
  next hd =>
    obtain ⟨rfl, rfl⟩ := Prod.mk.inj hd
    simp [fraction_of_ends h, Text.digits?_decimal]

/-- An integer is read back, up to where it ends. -/
theorem number_integer (i : Int) {rest : List Char} (h : Ends rest) :
    number (integer i ++ rest) = some (some i, rest) := by
  cases i with
  | ofNat n =>
    rw [integer, number]
    · simp [magnitude_decimal n h]
    · intro cs hc
      cases hd : decimal n with
      | nil => exact Text.decimal_ne_nil n hd
      | cons c ds =>
        rw [hd] at hc
        obtain ⟨rfl, -⟩ := List.cons.inj hc
        have := digit?_decimal '-' (hd ▸ List.mem_cons_self)
        simp [digit?] at this
  | negSucc n =>
    rw [integer, List.cons_append, number]
    simp [magnitude_decimal (n + 1) h, Int.negSucc_eq]

/-! ### Beginnings -/

/-- The first character of a number. -/
def Numeral (c : Char) : Prop := c = '-' ∨ (digit? c).isSome

/-- The first character of a document. -/
def Opens (c : Char) : Prop := c ∈ ['n', 't', 'f', '"', '[', '\x7b'] ∨ Numeral c

theorem integer_head (i : Int) : ∃ c cs, integer i = c :: cs ∧ Numeral c := by
  cases i with
  | ofNat n =>
    cases hd : decimal n with
    | nil => exact absurd hd (Text.decimal_ne_nil n)
    | cons c cs => exact ⟨c, cs, hd, .inr (digit?_decimal c (hd ▸ List.mem_cons_self))⟩
  | negSucc n => exact ⟨'-', _, rfl, .inl rfl⟩

theorem chars_head (j : Json) : ∃ c cs, chars j = c :: cs ∧ Opens c := by
  cases j with
  | null => exact ⟨_, _, rfl, .inl (by simp)⟩
  | bool b => cases b <;> exact ⟨_, _, rfl, .inl (by simp)⟩
  | num i =>
    obtain ⟨c, cs, hi, hc⟩ := integer_head i
    exact ⟨c, cs, hi, .inr hc⟩
  | str s => exact ⟨_, _, rfl, .inl (by simp)⟩
  | arr items => exact ⟨_, _, rfl, .inl (by simp)⟩
  | obj members => exact ⟨_, _, rfl, .inl (by simp)⟩

theorem not_numeral_of_mem {c : Char}
    (h : c ∈ [' ', '\n', '\t', '\r', ']', 'n', 't', 'f', '"', '[', '\x7b']) : ¬ Numeral c := by
  simp only [List.mem_cons, List.not_mem_nil, or_false] at h
  rcases h with rfl | rfl | rfl | rfl | rfl | rfl | rfl | rfl | rfl | rfl | rfl <;>
    simp [Numeral, digit?]

theorem not_opens_of_mem {c : Char} (h : c ∈ [' ', '\n', '\t', '\r', ']']) : ¬ Opens c := by
  rintro (ho | hn)
  · simp only [List.mem_cons, List.not_mem_nil, or_false] at h
    rcases h with rfl | rfl | rfl | rfl | rfl <;> simp at ho
  · exact not_numeral_of_mem (List.mem_append_left ['n', 't', 'f', '"', '[', '\x7b'] h) hn

/-- No blank stands before a document. -/
theorem skip_opens {c : Char} {cs : List Char} (h : Opens c) : skip (c :: cs) = c :: cs := by
  have hb : ¬ (c = ' ' ∨ c = '\n' ∨ c = '\t' ∨ c = '\r') := by
    intro hc
    exact not_opens_of_mem (by simp; tauto) h
  simp [skip, hb]

theorem value_numeral {fuel : Nat} {c : Char} {cs : List Char} (h : Numeral c) :
    value (fuel + 1) (c :: cs) = (number (c :: cs)).map fun p => (.num p.1, p.2) := by
  rw [value, skip_opens (.inr h)]
  split
  case h_7 => rfl
  all_goals
    next hc =>
      obtain ⟨rfl, -⟩ := List.cons.inj hc
      exact absurd h (not_numeral_of_mem (by simp))

/-! ### Documents -/

theorem chars_length_pos (j : Json) : 0 < (chars j).length := by
  obtain ⟨c, cs, hj, -⟩ := chars_head j
  simp [hj]

theorem itemChars_cons_cons (j k : Json) (js : List Json) :
    itemChars (j :: k :: js) = chars j ++ ',' :: itemChars (k :: js) := by
  rw [itemChars]
  simp

theorem memberChars_cons_cons (m n : String × Json) (ms : List (String × Json)) :
    memberChars (m :: n :: ms) = quote m.1 ++ ':' :: (chars m.2 ++ ',' :: memberChars (n :: ms)) := by
  rw [memberChars]
  simp

/-- Items start as their first one does, so the parser sees no closing bracket. -/
theorem itemChars_head (j : Json) (js : List Json) :
    ∃ c cs, itemChars (j :: js) = c :: cs ∧ Opens c := by
  obtain ⟨c, cs, hj, hc⟩ := chars_head j
  cases js with
  | nil => exact ⟨c, cs, by rw [itemChars, hj], hc⟩
  | cons k js => exact ⟨c, _, by rw [itemChars_cons_cons, hj, List.cons_append], hc⟩

theorem memberChars_head (m : String × Json) (ms : List (String × Json)) :
    ∃ cs, memberChars (m :: ms) = '"' :: cs := by
  cases ms with
  | nil => exact ⟨_, by rw [memberChars, quote, List.cons_append]⟩
  | cons n ms => exact ⟨_, by rw [memberChars_cons_cons, quote, List.cons_append]⟩

theorem value_arr {fuel : Nat} {items : List Read} {cs rest : List Char}
    (hc : ∃ c cs', cs = c :: cs' ∧ Opens c) (h : Json.items fuel cs = some (items, rest)) :
    value (fuel + 1) ('[' :: cs) = some (.arr items, rest) := by
  obtain ⟨c, cs', rfl, ho⟩ := hc
  have hne : c ≠ ']' := fun hc => not_opens_of_mem (by simp) (hc ▸ ho)
  have hs : skip ('[' :: c :: cs') = '[' :: c :: cs' := skip_opens (.inl (by simp))
  simp [value, hs, skip_opens ho, hne, h]

theorem value_obj {fuel : Nat} {members : List (Option String × Read)} {cs rest : List Char}
    (hc : ∃ cs', cs = '"' :: cs') (h : Json.members fuel cs = some (members, rest)) :
    value (fuel + 1) ('\x7b' :: cs) = some (.obj members, rest) := by
  obtain ⟨cs', rfl⟩ := hc
  simp [value, skip, h]

mutual
/-- A document is read back, whatever stands after it. The fuel pays two steps for each character. -/
theorem value_chars : ∀ (j : Json) (fuel : Nat) (rest : List Char), 2 * (chars j).length ≤ fuel →
    Ends rest → value fuel (chars j ++ rest) = some (read j, rest)
  | j, 0, _, hf, _ => by
    have := chars_length_pos j
    omega
  | .null, fuel + 1, rest, _, _ => by simp [chars, value, skip, read]
  | .bool true, fuel + 1, rest, _, _ => by simp [chars, value, skip, read]
  | .bool false, fuel + 1, rest, _, _ => by simp [chars, value, skip, read]
  | .num i, fuel + 1, rest, _, hr => by
    obtain ⟨c, cs, hi, hc⟩ := integer_head i
    have hn := number_integer i hr
    simp only [hi, List.cons_append] at hn
    simp [chars, hi, value_numeral hc, hn, read]
  | .str s, fuel + 1, rest, _, _ => by simp [chars, quote, value, skip, text_quote, read]
  | .arr [], fuel + 1, rest, _, _ => by
    simp [chars, itemChars, value, skip, read, readItems]
  | .arr (j :: js), fuel + 1, rest, hf, _ => by
    rw [chars, List.length_cons, List.length_append, List.length_singleton] at hf
    rw [chars, read, List.cons_append, List.append_assoc, List.singleton_append]
    refine value_arr ?_ (items_chars j js fuel rest (by omega))
    obtain ⟨c, cs, hj, hc⟩ := itemChars_head j js
    exact ⟨c, _, by rw [hj, List.cons_append], hc⟩
  | .obj [], fuel + 1, rest, _, _ => by
    simp [chars, memberChars, value, skip, read, readMembers]
  | .obj (m :: ms), fuel + 1, rest, hf, _ => by
    rw [chars, List.length_cons, List.length_append, List.length_singleton] at hf
    rw [chars, read, List.cons_append, List.append_assoc, List.singleton_append]
    refine value_obj ?_ (members_chars m ms fuel rest (by omega))
    obtain ⟨cs, hm⟩ := memberChars_head m ms
    exact ⟨_, by rw [hm, List.cons_append]⟩

/-- One or more items are read back, up to the closing bracket. -/
theorem items_chars : ∀ (j : Json) (js : List Json) (fuel : Nat) (rest : List Char),
    2 * (itemChars (j :: js)).length + 1 ≤ fuel →
    items fuel (itemChars (j :: js) ++ ']' :: rest) = some (readItems (j :: js), rest)
  | _, _, 0, _, hf => by omega
  | j, [], fuel + 1, rest, hf => by
    rw [itemChars] at hf ⊢
    rw [items, value_chars j fuel _ (by omega) (ends_bracket rest)]
    simp [skip, readItems]
  | j, k :: js, fuel + 1, rest, hf => by
    rw [itemChars_cons_cons] at hf ⊢
    rw [List.length_append, List.length_cons] at hf
    rw [List.append_assoc, List.cons_append, items,
      value_chars j fuel _ (by omega) (ends_comma _)]
    simp [skip, items_chars k js fuel rest (by omega), readItems]

/-- One or more members are read back, up to the closing brace. -/
theorem members_chars : ∀ (m : String × Json) (ms : List (String × Json)) (fuel : Nat)
    (rest : List Char), 2 * (memberChars (m :: ms)).length + 1 ≤ fuel →
    members fuel (memberChars (m :: ms) ++ '\x7d' :: rest) = some (readMembers (m :: ms), rest)
  | _, _, 0, _, hf => by omega
  | (k, j), [], fuel + 1, rest, hf => by
    rw [memberChars] at hf ⊢
    rw [List.length_append, List.length_cons] at hf
    have hv := value_chars j fuel _ (by omega) (ends_brace rest)
    simp [members, quote, skip, text_quote, hv, readMembers]
  | (k, j), n :: ms, fuel + 1, rest, hf => by
    rw [memberChars_cons_cons] at hf ⊢
    simp only [List.length_append, List.length_cons] at hf
    have hv := value_chars j fuel _ (by omega)
      (ends_comma (memberChars (n :: ms) ++ '\x7d' :: rest))
    have hm := members_chars n ms fuel rest (by omega)
    simp [members, quote, skip, text_quote, hv, hm, readMembers]
end

/-- Printing and parsing gives the document back. -/
theorem parse_print (j : Json) : parse (print j) = some (read j) := by
  have hv := value_chars j (2 * (chars j).length + 2) [] (by omega) ends_nil
  rw [List.append_nil] at hv
  simp [parse, print, hv, skip]

mutual
theorem read_injective : ∀ {j k : Json}, read j = read k → j = k
  | .null, k, h => by cases k <;> simp_all [read]
  | .bool _, k, h => by cases k <;> simp_all [read]
  | .num _, k, h => by cases k <;> simp_all [read]
  | .str _, k, h => by cases k <;> simp_all [read]
  | .arr js, k, h => by
    cases k with
    | arr ks =>
      have hs : readItems js = readItems ks := by simpa [read] using h
      rw [readItems_injective hs]
    | _ => simp [read] at h
  | .obj ms, k, h => by
    cases k with
    | obj ns =>
      have hs : readMembers ms = readMembers ns := by simpa [read] using h
      rw [readMembers_injective hs]
    | _ => simp [read] at h

theorem readItems_injective : ∀ {js ks : List Json}, readItems js = readItems ks → js = ks
  | [], ks, h => by cases ks <;> simp_all [readItems]
  | j :: js, ks, h => by
    cases ks with
    | nil => simp [readItems] at h
    | cons k ks =>
      rw [readItems, readItems, List.cons.injEq] at h
      rw [read_injective h.1, readItems_injective h.2]

theorem readMembers_injective : ∀ {ms ns : List (String × Json)},
    readMembers ms = readMembers ns → ms = ns
  | [], ns, h => by cases ns <;> simp_all [readMembers]
  | (k, j) :: ms, ns, h => by
    cases ns with
    | nil => simp [readMembers] at h
    | cons n ns =>
      rw [readMembers, readMembers, List.cons.injEq, Prod.mk.injEq, Option.some.injEq] at h
      obtain ⟨⟨rfl, hj⟩, hs⟩ := h
      rw [read_injective hj, readMembers_injective hs]
end

/-- **Texts are unambiguous.** Documents with one text are one document. -/
theorem print_injective {j k : Json} (h : print j = print k) : j = k := by
  have hj := parse_print j
  rw [h, parse_print] at hj
  exact (read_injective (Option.some.inj hj)).symm

end Attestor.Json
