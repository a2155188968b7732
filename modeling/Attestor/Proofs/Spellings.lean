import Attestor.Proofs.Base64
import Mathlib.Algebra.Order.Ring.Nat
import Mathlib.Data.List.Basic
import Mathlib.Data.List.Induction

/-!
The standard spelling of a text in base64, said in bits.

A letter of the alphabet says the six bits of its place in it and a byte has eight bits, the highest first in both.
Letters spell bytes when they say the bits of the bytes, in turn, and after them a tail too short for a letter
(`Spelling.Spells`). Any padding may follow and the tail may be anything, so bytes have many spellings. Of these one is
canonical (`Spelling.Canonical`): its tail is zero and its padding fills the last group of four. Bytes have one
canonical spelling, and that is what is written (`eq_encode_iff`).

`decoding_exact`: a text is read from the canonical spelling of its UTF-8 bytes and from nothing else, so the keys of an
event that are read alike are written alike.
-/

namespace Attestor.Text.Base64

/-! ### Bits -/

/-- The low bits of a number, the highest of them first. -/
def bits : Nat → Nat → List Bool
  | 0, _ => []
  | width + 1, n => n.testBit width :: bits width n

@[simp] theorem length_bits (width n : Nat) : (bits width n).length = width := by
  induction width with
  | zero => rfl
  | succ width ih => rw [bits, List.length_cons, ih]

theorem bits_zero (width : Nat) : bits width 0 = List.replicate width false := by
  induction width with
  | zero => rfl
  | succ width ih => rw [bits, ih, Nat.zero_testBit, List.replicate_succ]

theorem bits_congr {width m n : Nat} (h : ∀ i < width, m.testBit i = n.testBit i) : bits width m = bits width n := by
  induction width with
  | zero => rfl
  | succ width ih => rw [bits, bits, h width (Nat.lt_succ_self width), ih fun i hi => h i (Nat.lt_succ_of_lt hi)]

theorem testBit_of_bits {width m n : Nat} (h : bits width m = bits width n) {i : Nat} (hi : i < width) :
    m.testBit i = n.testBit i := by
  induction width with
  | zero => exact absurd hi (Nat.not_lt_zero i)
  | succ width ih =>
    obtain ⟨hhead, hrest⟩ := List.cons.inj h
    rcases Nat.lt_succ_iff_lt_or_eq.mp hi with hlt | rfl
    · exact ih hrest hlt
    · exact hhead

theorem bits_inj {width m n : Nat} (hm : m < 2 ^ width) (hn : n < 2 ^ width) (h : bits width m = bits width n) :
    m = n := by
  refine Nat.eq_of_testBit_eq fun i => ?_
  by_cases hi : i < width
  · exact testBit_of_bits h hi
  · have hpow : 2 ^ width ≤ 2 ^ i := Nat.pow_le_pow_right (by decide) (Nat.not_lt.mp hi)
    rw [Nat.testBit_lt_two_pow (Nat.lt_of_lt_of_le hm hpow), Nat.testBit_lt_two_pow (Nat.lt_of_lt_of_le hn hpow)]

/-- The bits of a number are those of its high and its low part. -/
theorem bits_split (high low n : Nat) : bits (high + low) n = bits high (n / 2 ^ low) ++ bits low (n % 2 ^ low) := by
  have hlow : bits low (n % 2 ^ low) = bits low n :=
    bits_congr fun i hi => by rw [Nat.testBit_mod_two_pow, decide_eq_true hi, Bool.true_and]
  rw [hlow]
  induction high with
  | zero => rw [Nat.zero_add, bits, List.nil_append]
  | succ high ih => rw [Nat.succ_add, bits, ih, bits, Nat.testBit_div_two_pow, List.cons_append]

/-! ### Bits of lists -/

section Lists

variable {α : Type} {width : Nat} {number : α → Nat}

/-- The bits of the elements in turn, so many for the number of each. -/
def bitsOf (width : Nat) (number : α → Nat) (xs : List α) : List Bool :=
  xs.flatMap fun x => bits width (number x)

theorem bitsOf_cons (x : α) (xs : List α) :
    bitsOf width number (x :: xs) = bits width (number x) ++ bitsOf width number xs :=
  List.flatMap_cons

theorem length_bitsOf (xs : List α) : (bitsOf width number xs).length = width * xs.length := by
  induction xs with
  | nil => rfl
  | cons x xs ih => rw [bitsOf_cons, List.length_append, length_bits, ih, List.length_cons, Nat.mul_succ, Nat.add_comm]

/-- Elements that are told apart by their bits are told apart in lists. -/
theorem bitsOf_inj {xs ys : List α} (hlength : xs.length = ys.length)
    (hinj : ∀ x ∈ xs, ∀ y ∈ ys, bits width (number x) = bits width (number y) → x = y)
    (h : bitsOf width number xs = bitsOf width number ys) : xs = ys := by
  induction xs generalizing ys with
  | nil => exact (List.length_eq_zero_iff.mp hlength.symm).symm
  | cons x xs ih =>
    cases ys with
    | nil => cases hlength
    | cons y ys =>
      rw [bitsOf_cons, bitsOf_cons] at h
      obtain ⟨hhead, hrest⟩ := List.append_inj h (by rw [length_bits, length_bits])
      have hxs : xs = ys := ih (Nat.succ.inj hlength)
        (fun a ha b hb => hinj a (List.mem_cons_of_mem x ha) b (List.mem_cons_of_mem y hb)) hrest
      rw [hinj x List.mem_cons_self y List.mem_cons_self hhead, hxs]

end Lists

/-! ### Letters and bytes -/

/-- The letters, each at the place of the number that it stands for. -/
def alphabet : List Char :=
  "ABCDEFGHIJKLMNOPQRSTUVWXYZabcdefghijklmnopqrstuvwxyz0123456789+/".toList

/-- The bits that letters say. -/
def said (letters : List Char) : List Bool := bitsOf 6 (fun c => alphabet.idxOf c) letters

/-- The bits of bytes. -/
def content (bytes : List UInt8) : List Bool := bitsOf 8 UInt8.toNat bytes

theorem length_alphabet : alphabet.length = 64 := by
  decide +kernel

theorem idxOf_symbol : ∀ n < 64, alphabet.idxOf (symbol n) = n := by
  decide +kernel

theorem symbol_mem {n : Nat} (hn : n < 64) : symbol n ∈ alphabet := by
  rw [← List.idxOf_lt_length_iff, length_alphabet, idxOf_symbol n hn]
  exact hn

/-- The place of a letter takes six bits. -/
theorem idxOf_lt {c : Char} (hc : c ∈ alphabet) : alphabet.idxOf c < 2 ^ 6 :=
  Nat.lt_of_lt_of_eq (List.idxOf_lt_length_of_mem hc) length_alphabet

theorem length_said (letters : List Char) : (said letters).length = 6 * letters.length :=
  length_bitsOf letters

theorem length_content (bytes : List UInt8) : (content bytes).length = 8 * bytes.length :=
  length_bitsOf bytes

theorem said_append (letters others : List Char) : said (letters ++ others) = said letters ++ said others :=
  List.flatMap_append

theorem content_append (bytes others : List UInt8) : content (bytes ++ others) = content bytes ++ content others :=
  List.flatMap_append

/-- Letters of the alphabet are what they say. -/
theorem said_inj {letters others : List Char} (hlength : letters.length = others.length)
    (hletters : ∀ c ∈ letters, c ∈ alphabet) (hothers : ∀ c ∈ others, c ∈ alphabet)
    (h : said letters = said others) : letters = others := by
  refine bitsOf_inj hlength (fun c hc d hd hbits => ?_) h
  have hplace : alphabet.idxOf c = alphabet.idxOf d :=
    bits_inj (idxOf_lt (hletters c hc)) (idxOf_lt (hothers d hd)) hbits
  exact (List.idxOf_inj (hletters c hc)).mp hplace

theorem content_inj {bytes others : List UInt8} (hlength : bytes.length = others.length)
    (h : content bytes = content others) : bytes = others :=
  bitsOf_inj hlength (fun b _ d _ hbits => UInt8.toNat_inj.mp (bits_inj b.toNat_lt d.toNat_lt hbits)) h

/-! ### Spellings -/

/-- Letters, and so many signs of padding after them. -/
@[ext] structure Spelling where
  letters : List Char
  padding : Nat

namespace Spelling

def chars (w : Spelling) : List Char := w.letters ++ List.replicate w.padding '='

/-- The letters say the bytes and then the tail, and are not longer than that takes. -/
structure Spells (w : Spelling) (bytes : List UInt8) (tail : List Bool) : Prop where
  letters : ∀ c ∈ w.letters, c ∈ alphabet
  said : said w.letters = content bytes ++ tail
  short : tail.length < 6

/-- The tail is zero, and the padding is what the last group of four lacks. -/
structure Canonical (w : Spelling) (tail : List Bool) : Prop where
  zero : ∀ bit ∈ tail, bit = false
  whole : 4 ∣ w.letters.length + w.padding
  least : w.padding < 4

end Spelling

/-- The standard form of the bytes, with padding. -/
def Standard (text : List Char) (bytes : List UInt8) : Prop :=
  ∃ (w : Spelling) (tail : List Bool), text = w.chars ∧ w.Spells bytes tail ∧ w.Canonical tail

section Spelling

variable {w v : Spelling} {bytes others : List UInt8} {tail rest : List Bool}

/-- The letters are what is not padding. -/
theorem Spelling.Spells.filter_chars (h : w.Spells bytes tail) : w.chars.filter (· ≠ '=') = w.letters := by
  have hkept : w.letters.filter (· ≠ '=') = w.letters := List.filter_eq_self.mpr fun c hc =>
    decide_eq_true fun heq => absurd (heq ▸ h.letters c hc) (by decide)
  rw [chars, List.filter_append, hkept, List.filter_replicate_of_neg (by decide), List.append_nil]

/-- A text is spelled in one way: it shows which of it is letters, and so how much is padding. -/
theorem Spelling.Spells.chars_inj (h : w.Spells bytes tail) (hv : v.Spells others rest) (hchars : w.chars = v.chars) :
    w = v := by
  have hletters : w.letters = v.letters := by rw [← h.filter_chars, hchars, hv.filter_chars]
  have hlength := congrArg List.length hchars
  simp only [chars, List.length_append, List.length_replicate, hletters] at hlength
  exact Spelling.ext hletters (Nat.add_left_cancel hlength)

/-- The tail is too short for a byte, so how many bytes are spelled is seen from the number of letters. -/
theorem Spelling.Spells.bytes_inj (h : w.Spells bytes tail) (hother : w.Spells others rest) :
    bytes = others ∧ tail = rest := by
  have hsaid : content bytes ++ tail = content others ++ rest := h.said.symm.trans hother.said
  have hlength := congrArg List.length hsaid
  have hshort := h.short
  have hshort' := hother.short
  simp only [List.length_append, length_content] at hlength
  obtain ⟨hcontent, htail⟩ := List.append_inj hsaid (by rw [length_content, length_content]; omega)
  exact ⟨content_inj (by omega) hcontent, htail⟩

/-- Bytes have one standard form. -/
theorem Standard.unique {text other : List Char} (h : Standard text bytes) (hother : Standard other bytes) :
    text = other := by
  obtain ⟨w, tail, rfl, hw, hcanonical⟩ := h
  obtain ⟨v, rest, rfl, hv, hcanonical'⟩ := hother
  have hlength := congrArg List.length hw.said
  have hlength' := congrArg List.length hv.said
  simp only [List.length_append, length_said, length_content] at hlength hlength'
  have hshort := hw.short
  have hshort' := hv.short
  -- the bits of the bytes fix how many letters there are, and so how long the tail is; both tails are zero
  have htails : tail = rest := by
    rw [List.eq_replicate_of_mem hcanonical.zero, List.eq_replicate_of_mem hcanonical'.zero,
      show tail.length = rest.length by omega]
  have hletters : w.letters = v.letters :=
    said_inj (by omega) hw.letters hv.letters (by rw [hw.said, hv.said, htails])
  have hpadding : w.padding = v.padding := by
    have hwhole := hcanonical.whole
    have hwhole' := hcanonical'.whole
    have hleast := hcanonical.least
    have hleast' := hcanonical'.least
    rw [← hletters] at hwhole'
    omega
  rw [Spelling.chars, Spelling.chars, hletters, hpadding]

/-- A spelling is a standard form exactly if it is canonical, and then of the bytes that it spells. -/
theorem Spelling.Spells.standard_iff (h : w.Spells bytes tail) :
    Standard w.chars others ↔ w.Canonical tail ∧ bytes = others := by
  constructor
  · rintro ⟨v, rest, hchars, hv, hcanonical⟩
    obtain rfl := h.chars_inj hv hchars
    obtain ⟨rfl, rfl⟩ := h.bytes_inj hv
    exact ⟨hcanonical, rfl⟩
  · rintro ⟨hcanonical, rfl⟩
    exact ⟨w, tail, rfl, h, hcanonical⟩

/-- The standard form has letters and padding. -/
theorem Standard.mem_alphabet {text : List Char} (h : Standard text bytes) {c : Char} (hc : c ∈ text)
    (hpadding : c ≠ '=') : c ∈ alphabet := by
  obtain ⟨w, tail, rfl, hw, -⟩ := h
  rcases List.mem_append.mp hc with hc | hc
  · exact hw.letters c hc
  · exact absurd (List.eq_of_mem_replicate hc) hpadding

end Spelling

/-! ### What is written -/

/-- The number that bytes are, the first byte the highest. -/
def number (bytes : List UInt8) : Nat := bytes.foldl (fun n b => n * 256 + b.toNat) 0

/-- So many symbols, for the low bits of a number. -/
def symbols : Nat → Nat → List Char
  | 0, _ => []
  | count + 1, n => symbols count (n / 64) ++ [symbol (n % 64)]

theorem length_symbols (count n : Nat) : (symbols count n).length = count := by
  induction count generalizing n with
  | zero => rfl
  | succ count ih => rw [symbols, List.length_append, ih, List.length_singleton]

theorem mem_alphabet_of_symbols {count n : Nat} {c : Char} (h : c ∈ symbols count n) : c ∈ alphabet := by
  induction count generalizing n with
  | zero => exact absurd h List.not_mem_nil
  | succ count ih =>
    rcases List.mem_append.mp h with h | h
    · exact ih h
    · obtain rfl := List.mem_singleton.mp h
      exact symbol_mem (Nat.mod_lt n (by decide))

theorem said_symbols (count n : Nat) : said (symbols count n) = bits (6 * count) n := by
  induction count generalizing n with
  | zero => rfl
  | succ count ih =>
    have hlast : said [symbol (n % 64)] = bits 6 (n % 64) := by
      rw [said, bitsOf_cons, idxOf_symbol _ (Nat.mod_lt n (by decide))]
      exact List.append_nil _
    rw [symbols, said_append, ih, hlast, Nat.mul_succ]
    exact (bits_split (6 * count) 6 n).symm

theorem content_eq_bits (bytes : List UInt8) : content bytes = bits (8 * bytes.length) (number bytes) := by
  induction bytes using List.reverseRecOn with
  | nil => rfl
  | append_singleton bytes b ih =>
    have hb := b.toNat_lt
    have hnumber : number (bytes ++ [b]) = number bytes * 256 + b.toNat := List.foldl_append
    have hhigh : number (bytes ++ [b]) / 2 ^ 8 = number bytes := by omega
    have hlow : number (bytes ++ [b]) % 2 ^ 8 = b.toNat := by omega
    rw [content_append, ih, List.length_append, List.length_singleton, Nat.mul_succ, bits_split, hhigh, hlow]
    exact congrArg _ (List.append_nil _)

/-- A last group: the bytes and a zero tail in as many symbols as that takes, and padding to four. -/
theorem standard_last (bytes : List UInt8) (count tail padding : Nat) (hbits : 6 * count = 8 * bytes.length + tail)
    (htail : tail < 6) (hwhole : 4 ∣ count + padding) (hpadding : padding < 4) :
    Standard (symbols count (number bytes * 2 ^ tail) ++ List.replicate padding '=') bytes := by
  have hpos : 0 < 2 ^ tail := Nat.two_pow_pos tail
  refine ⟨⟨_, padding⟩, List.replicate tail false, rfl, ⟨fun c => mem_alphabet_of_symbols, ?_, ?_⟩,
    ⟨?_, ?_, hpadding⟩⟩
  · rw [said_symbols, hbits, bits_split, Nat.mul_div_cancel _ hpos, Nat.mul_mod_left, bits_zero, content_eq_bits]
  · rwa [List.length_replicate]
  · exact fun bit => List.eq_of_mem_replicate
  · rwa [length_symbols]

/-- A whole group: three bytes in four symbols. -/
theorem Standard.group {text : List Char} {bytes : List UInt8} (h : Standard text bytes) (three : List UInt8)
    (hthree : three.length = 3) : Standard (symbols 4 (number three) ++ text) (three ++ bytes) := by
  obtain ⟨w, tail, rfl, hw, hcanonical⟩ := h
  have hwhole := hcanonical.whole
  refine ⟨⟨symbols 4 (number three) ++ w.letters, w.padding⟩, tail, ?_, ⟨fun c hc => ?_, ?_, hw.short⟩,
    ⟨hcanonical.zero, ?_, hcanonical.least⟩⟩
  · exact (List.append_assoc ..).symm
  · exact (List.mem_append.mp hc).elim mem_alphabet_of_symbols (hw.letters c)
  · rw [said_append, said_symbols, content_append, content_eq_bits three, hthree, hw.said, List.append_assoc]
  · simp only [List.length_append, length_symbols]
    omega

/-- What is written is standard. -/
theorem standard_encode (bytes : List UInt8) : Standard (encode bytes) bytes := by
  fun_induction encode bytes with
  | case1 => exact standard_last [] 0 0 0 rfl (by decide) (by decide) (by decide)
  | case2 a n =>
    have hlast := standard_last [a] 2 4 2 rfl (by decide) (by decide) (by decide)
    have ha := a.toNat_lt
    have hnumber : number [a] * 2 ^ 4 = n := by simp [number, n]
    have hfirst : n / 64 % 64 = n / 64 := by omega
    rw [hnumber] at hlast
    simpa [symbols, hfirst] using hlast
  | case3 a b n =>
    have hlast := standard_last [a, b] 3 2 1 rfl (by decide) (by decide) (by decide)
    have ha := a.toNat_lt
    have hb := b.toNat_lt
    have hnumber : number [a, b] * 2 ^ 2 = n := by simp [number, n]
    have hfirst : n / 64 / 64 % 64 = n / 4096 := by omega
    rw [hnumber] at hlast
    simpa [symbols, hfirst] using hlast
  | case4 a b c rest n ih =>
    have hgroup := ih.group [a, b, c] rfl
    have ha := a.toNat_lt
    have hb := b.toNat_lt
    have hc := c.toNat_lt
    have hnumber : number [a, b, c] = n := by simp [number, n]
    have hfirst : n / 64 / 64 / 64 % 64 = n / 262144 := by omega
    have hsecond : n / 64 / 64 % 64 = n / 4096 % 64 := by omega
    rw [hnumber] at hgroup
    simpa [symbols, hfirst, hsecond] using hgroup

/-- What is written is the standard form, and nothing else is. -/
theorem eq_encode_iff {text : List Char} {bytes : List UInt8} : text = encode bytes ↔ Standard text bytes := by
  constructor
  · rintro rfl
    exact standard_encode bytes
  · exact fun h => h.unique (standard_encode bytes)

/-! ### What is read -/

/-- The bytes of a text. -/
def utf8 (t : String) : List UInt8 := t.toUTF8.data.toList

theorem decodeText_iff_standard {s t : String} : decodeText s = some t ↔ Standard s.toList (utf8 t) := by
  rw [decodeText_eq_some_iff, ← eq_encode_iff, encodeText, ← String.toList_inj, String.toList_ofList, utf8]

/-- Reading takes a text from its standard form and from nothing else. -/
structure Exact (read : String → Option String) : Prop where
  /-- A text is read exactly from the standard form of its bytes. -/
  standard : ∀ s t, read s = some t ↔ Standard s.toList (utf8 t)
  /-- Each text has one form that it is read from, and no second one. -/
  form : ∀ t, ∃! s, read s = some t
  /-- Of what spells bytes the canonical spelling is read, and that only if the bytes are those of a text. Other
  padding and a tail that is not zero are refused. -/
  spelled : ∀ (w : Spelling) bytes tail, w.Spells bytes tail →
    ∀ t, read (String.ofList w.chars) = some t ↔ w.Canonical tail ∧ bytes = utf8 t
  /-- Blanks and letters of other alphabets are refused wherever they stand. -/
  foreign : ∀ s, ∀ c ∈ s.toList, c ∉ alphabet → c ≠ '=' → read s = none

theorem exact_decodeText : Exact decodeText where
  standard _ _ := decodeText_iff_standard
  form t := ⟨encodeText t, decodeText_encodeText t, fun _ h => decodeText_eq_some_iff.mp h⟩
  spelled w bytes tail h t := by rw [decodeText_iff_standard, String.toList_ofList, h.standard_iff]
  foreign s c hc hletter hpadding := Option.eq_none_iff_forall_ne_some.mpr fun t h =>
    hletter ((decodeText_iff_standard.mp h).mem_alphabet hc hpadding)

end Attestor.Text.Base64

namespace Attestor.Contract

open Text.Base64 (Standard utf8)

/-- Under base64 an attribute says what its key and its value are the standard forms of. -/
theorem Encoding.normalize_base64_iff {a : Chain.Attribute} {key value : String} :
    normalize .base64 a = some (key, value) ↔
      Standard a.key.toList (utf8 key) ∧ Standard a.value.toList (utf8 value) := by
  simp [normalize, Option.bind_eq_some_iff, ← Text.Base64.decodeText_iff_standard]

/-- **Reading base64 is the exact inverse of writing it.** A text is read from the standard, padded form of its UTF-8
bytes and from nothing else. So it is with the attributes of an event in base64, key and value, and keys that are
written differently are read differently. -/
theorem decoding_exact :
    Text.Base64.Exact Text.Base64.decodeText ∧
      (∀ a key value, Encoding.normalize .base64 a = some (key, value) ↔
        Standard a.key.toList (utf8 key) ∧ Standard a.value.toList (utf8 value)) ∧
      ∀ a b key value other, Encoding.normalize .base64 a = some (key, value) →
        Encoding.normalize .base64 b = some (key, other) → a.key = b.key := by
  refine ⟨Text.Base64.exact_decodeText, fun _ _ _ => Encoding.normalize_base64_iff, ?_⟩
  intro a b key value other ha hb
  obtain ⟨hkey, -⟩ := Encoding.normalize_base64_iff.mp ha
  obtain ⟨hother, -⟩ := Encoding.normalize_base64_iff.mp hb
  exact String.toList_inj.mp (hkey.unique hother)

/-- Two texts, what else would spell them, and a byte that is no text. -/
example : (["cHLDqnQ=", "fn5+"].map Text.Base64.decodeText = [some "prêt", some "~~~"]) ∧
    ∀ s ∈ ["cHLDqnQ", "cHLDqnQ==", "cHLDqnR=", "cHLD qnQ=", "fn5-", "/w=="], Text.Base64.decodeText s = none := by
  decide +kernel

end Attestor.Contract
