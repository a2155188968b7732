import Attestor.Contract.Event

/-!
Reading back what was written in base64. Bytes, and texts over their UTF-8 bytes, are read as they were written
(`decode_encode`, `decodeText_encodeText`), and where padding is required nothing else is read (`encode_decode`,
`decodeText_eq_some_iff`). The underscore is no symbol of the alphabet and every key of the contract has one, so no
text in base64 is a key of the contract (`isKey_encodeText`).
-/

namespace Attestor.Text.Base64

/-! ### Symbols -/

@[simp] theorem value?_symbol : ∀ n < 64, value? (symbol n) = some n := by
  decide +kernel

/-- What has no value is no symbol. -/
theorem symbol_ne {c : Char} (hc : value? c = none) {n : Nat} (hn : n < 64) : symbol n ≠ c := by
  intro h
  have hvalue := value?_symbol n hn
  rw [h, hc] at hvalue
  cases hvalue

theorem symbol_ne_padding {n : Nat} (hn : n < 64) : symbol n ≠ '=' :=
  symbol_ne (by decide) hn

theorem value?_lt {c : Char} {n : Nat} (h : value? c = some n) : n < 64 := by
  unfold value? at h
  grind

/-- The symbol of a value is the character that has it. -/
theorem symbol_value? {c : Char} {n : Nat} (h : value? c = some n) : symbol n = c := by
  have hchar := Char.ofNat_toNat c
  simp only [value?, beq_iff_eq, Bool.and_eq_true, decide_eq_true_eq] at h
  split at h
  · obtain rfl := Option.some.inj h
    rw [symbol, if_pos (by omega), show 65 + (c.toNat - 65) = c.toNat by omega, hchar]
  split at h
  · obtain rfl := Option.some.inj h
    rw [symbol, if_neg (by omega), if_pos (by omega), show 71 + (c.toNat - 71) = c.toNat by omega, hchar]
  split at h
  · obtain rfl := Option.some.inj h
    rw [symbol, if_neg (by omega), if_neg (by omega), if_pos (by omega), Nat.add_sub_cancel, hchar]
  split at h
  · obtain rfl := Option.some.inj h
    exact Eq.symm ‹c = '+'›
  split at h
  · obtain rfl := Option.some.inj h
    exact Eq.symm ‹c = '/'›
  · cases h

/-! ### Bytes -/

theorem last2_symbols (a : UInt8) : last2 (symbol (a.toNat * 16 / 64)) (symbol (a.toNat * 16 % 64)) = some [a] := by
  have ha := a.toNat_lt
  have hn : a.toNat * 16 / 64 * 64 + a.toNat * 16 % 64 = a.toNat * 16 := by omega
  rw [last2, value?_symbol _ (by omega), value?_symbol _ (by omega)]
  simp [hn]

theorem last3_symbols (a b : UInt8) :
    let n := (a.toNat * 256 + b.toNat) * 4
    last3 (symbol (n / 4096)) (symbol (n / 64 % 64)) (symbol (n % 64)) = some [a, b] := by
  intro n
  have ha := a.toNat_lt
  have hb := b.toNat_lt
  have hn : (n / 4096 * 64 + n / 64 % 64) * 64 + n % 64 = n := by omega
  rw [last3, value?_symbol _ (by omega), value?_symbol _ (by omega), value?_symbol _ (by omega)]
  have hfirst : n / 1024 = a.toNat := by omega
  have hsecond : n / 4 % 256 = b.toNat := by omega
  simp [hn, hfirst, hsecond, show n % 4 = 0 by omega]

theorem group_symbols (a b c : UInt8) :
    let n := (a.toNat * 256 + b.toNat) * 256 + c.toNat
    group (symbol (n / 262144)) (symbol (n / 4096 % 64)) (symbol (n / 64 % 64)) (symbol (n % 64)) =
      some [a, b, c] := by
  intro n
  have ha := a.toNat_lt
  have hb := b.toNat_lt
  have hc := c.toNat_lt
  have hn : ((n / 262144 * 64 + n / 4096 % 64) * 64 + n / 64 % 64) * 64 + n % 64 = n := by omega
  rw [group, value?_symbol _ (by omega), value?_symbol _ (by omega), value?_symbol _ (by omega),
    value?_symbol _ (by omega)]
  have hfirst : n / 65536 = a.toNat := by omega
  have hsecond : n / 256 % 256 = b.toNat := by omega
  have hthird : n % 256 = c.toNat := by omega
  simp [hn, hfirst, hsecond, hthird]

/-- A group of four symbols is no last group with padding. -/
theorem decode_group (padding : Padding) {a b c d : Char} (hd : d ≠ '=') (rest : List Char) :
    decode padding (a :: b :: c :: d :: rest) = do
      let bytes ← group a b c d
      return bytes ++ (← decode padding rest) := by
  rw [decode]
  · exact fun _ h _ => hd h
  · exact fun h _ => hd h

/-- Bytes are read as they were written, whether padding is required or not. -/
theorem decode_encode (padding : Padding) (bytes : List UInt8) : decode padding (encode bytes) = some bytes := by
  fun_induction encode bytes with
  | case1 => rfl
  | case2 a n => exact last2_symbols a
  | case3 a b n =>
    have hlast := symbol_ne_padding (n := n % 64) (by omega)
    rw [decode]
    · exact last3_symbols a b
    · exact fun h => absurd h hlast
  | case4 a b c rest n ih =>
    rw [decode_group padding (symbol_ne_padding (by omega)), group_symbols a b c, ih]
    rfl

/-- A last group of two symbols is read only as it is written. -/
theorem encode_last2 {a b : Char} {bytes : List UInt8} (h : last2 a b = some bytes) :
    encode bytes = [a, b, '=', '='] := by
  simp only [last2, Option.bind_eq_bind, Option.bind_eq_some_iff, Option.ite_none_right_eq_some] at h
  obtain ⟨m, hm, n, hn, hzero, hbytes⟩ := h
  obtain rfl := Option.some.inj hbytes
  have hmlt := value?_lt hm
  have hnlt := value?_lt hn
  have hvalue : (UInt8.ofNat ((m * 64 + n) / 16)).toNat * 16 = m * 64 + n := by
    rw [UInt8.toNat_ofNat']; omega
  simp only [encode, hvalue]
  rw [show (m * 64 + n) / 64 = m by omega, show (m * 64 + n) % 64 = n by omega, symbol_value? hm, symbol_value? hn]

/-- A last group of three symbols is read only as it is written. -/
theorem encode_last3 {a b c : Char} {bytes : List UInt8} (h : last3 a b c = some bytes) :
    encode bytes = [a, b, c, '='] := by
  simp only [last3, Option.bind_eq_bind, Option.bind_eq_some_iff, Option.ite_none_right_eq_some] at h
  obtain ⟨l, hl, m, hm, n, hn, hzero, hbytes⟩ := h
  obtain rfl := Option.some.inj hbytes
  have hllt := value?_lt hl
  have hmlt := value?_lt hm
  have hnlt := value?_lt hn
  have hvalue : ((UInt8.ofNat (((l * 64 + m) * 64 + n) / 1024)).toNat * 256 +
      (UInt8.ofNat (((l * 64 + m) * 64 + n) / 4 % 256)).toNat) * 4 = (l * 64 + m) * 64 + n := by
    rw [UInt8.toNat_ofNat', UInt8.toNat_ofNat']; omega
  simp only [encode, hvalue]
  rw [show ((l * 64 + m) * 64 + n) / 4096 = l by omega, show ((l * 64 + m) * 64 + n) / 64 % 64 = m by omega,
    show ((l * 64 + m) * 64 + n) % 64 = n by omega, symbol_value? hl, symbol_value? hm, symbol_value? hn]

/-- A whole group is read only as it is written, whatever is written after it. -/
theorem encode_group {a b c d : Char} {bytes : List UInt8} (h : group a b c d = some bytes) (rest : List UInt8) :
    encode (bytes ++ rest) = a :: b :: c :: d :: encode rest := by
  simp only [group, Option.bind_eq_bind, Option.bind_eq_some_iff] at h
  obtain ⟨k, hk, l, hl, m, hm, n, hn, hbytes⟩ := h
  obtain rfl := Option.some.inj hbytes
  have hklt := value?_lt hk
  have hllt := value?_lt hl
  have hmlt := value?_lt hm
  have hnlt := value?_lt hn
  generalize hv : ((k * 64 + l) * 64 + m) * 64 + n = v
  have hvalue : ((UInt8.ofNat (v / 65536)).toNat * 256 + (UInt8.ofNat (v / 256 % 256)).toNat) * 256 +
      (UInt8.ofNat (v % 256)).toNat = v := by
    rw [UInt8.toNat_ofNat', UInt8.toNat_ofNat', UInt8.toNat_ofNat']; omega
  simp only [List.cons_append, List.nil_append, encode, hvalue]
  rw [show v / 262144 = k by omega, show v / 4096 % 64 = l by omega, show v / 64 % 64 = m by omega,
    show v % 64 = n by omega, symbol_value? hk, symbol_value? hl, symbol_value? hm, symbol_value? hn]

/-- Where padding is required, nothing is read but what is written. -/
theorem encode_decode {symbols : List Char} {bytes : List UInt8} (h : decode .required symbols = some bytes) :
    encode bytes = symbols := by
  fun_induction decode Padding.required symbols generalizing bytes with
  | case1 => obtain rfl := Option.some.inj h; rfl
  | case2 a b => exact encode_last2 h
  | case3 a b c => exact encode_last3 h
  | case4 a b c d rest htwo hone ih =>
    simp only [Option.bind_eq_bind, Option.bind_eq_some_iff] at h
    obtain ⟨first, hfirst, others, hothers, hbytes⟩ := h
    obtain rfl := Option.some.inj hbytes
    rw [encode_group hfirst, ih hothers]
  -- a last group that lacks padding
  | case5 | case7 | case9 => cases ‹Padding.required = .optional›
  | case6 | case8 | case10 | case11 => cases h

/-- The written form has symbols and padding. -/
theorem not_mem_encode {c : Char} (hc : value? c = none) (hpadding : c ≠ '=') (bytes : List UInt8) :
    c ∉ encode bytes := by
  fun_induction encode bytes with
  | case1 => exact List.not_mem_nil
  | case2 a n =>
    have ha := a.toNat_lt
    have hfirst := symbol_ne hc (n := n / 64) (by omega)
    have hsecond := symbol_ne hc (n := n % 64) (by omega)
    simp [hfirst.symm, hsecond.symm, hpadding]
  | case3 a b n =>
    have ha := a.toNat_lt
    have hb := b.toNat_lt
    have hfirst := symbol_ne hc (n := n / 4096) (by omega)
    have hsecond := symbol_ne hc (n := n / 64 % 64) (by omega)
    have hthird := symbol_ne hc (n := n % 64) (by omega)
    simp [hfirst.symm, hsecond.symm, hthird.symm, hpadding]
  | case4 a b c' rest n ih =>
    have ha := a.toNat_lt
    have hb := b.toNat_lt
    have hc' := c'.toNat_lt
    have hfirst := symbol_ne hc (n := n / 262144) (by omega)
    have hsecond := symbol_ne hc (n := n / 4096 % 64) (by omega)
    have hthird := symbol_ne hc (n := n / 64 % 64) (by omega)
    have hfourth := symbol_ne hc (n := n % 64) (by omega)
    simp [hfirst.symm, hsecond.symm, hthird.symm, hfourth.symm, ih]

/-! ### Texts -/

/-- A text is read as it was written. -/
@[simp] theorem decodeText_encodeText (s : String) : decodeText (encodeText s) = some s := by
  have hbytes : decode .required (encodeText s).toList = some s.toUTF8.data.toList := by
    rw [encodeText, String.toList_ofList, decode_encode]
  rw [decodeText, hbytes]
  exact dif_pos s.isValidUTF8

/-- A text is read exactly from its written form. -/
theorem decodeText_eq_some_iff {s t : String} : decodeText s = some t ↔ s = encodeText t := by
  refine ⟨fun h => ?_, fun h => h ▸ decodeText_encodeText t⟩
  simp only [decodeText, Option.bind_eq_bind, Option.bind_eq_some_iff] at h
  obtain ⟨bytes, hbytes, htext⟩ := h
  have hutf8 : t.toUTF8.data.toList = bytes := by
    rw [String.fromUTF8?] at htext
    split at htext
    · obtain rfl := Option.some.inj htext
      rfl
    · cases htext
  rw [encodeText, hutf8, encode_decode hbytes, String.ofList_toList]

end Attestor.Text.Base64

namespace Attestor.Contract

/-- Every key of the contract has an underscore. -/
theorem Key.underscore_mem (k : Key) : '_' ∈ k.text.toList := by
  cases k <;> decide

/-- No text in base64 is a key of the contract. -/
theorem Key.isKey_encodeText (s : String) : Key.isKey (Text.Base64.encodeText s) = false := by
  refine Bool.eq_false_iff.mpr fun h => ?_
  obtain ⟨k, hk⟩ := Option.isSome_iff_exists.mp h
  have htext : k.text = Text.Base64.encodeText s := by simpa using List.find?_some hk
  have hmem := k.underscore_mem
  rw [htext, Text.Base64.encodeText, String.toList_ofList] at hmem
  exact Text.Base64.not_mem_encode (by decide) (by decide) _ hmem

end Attestor.Contract
