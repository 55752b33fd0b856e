import DualSeal.Proofs.Outcome
import DualSeal.Text.Utf8
import Mathlib.Data.Char
import Mathlib.Data.List.Lex

/-!
# Texts and their bytes

Every text is read back from its bytes (`decode_encode`), so its bytes determine it, and no other
bytes are read as that text (`decode_eq_ok_iff`): overlong spellings and surrogates are refused.
ASCII texts are their own bytes, and the order of texts is that of their bytes.
-/

namespace DualSeal.Utf8

private theorem toNat_ofNat {n : Nat} (h : n < 256) : (UInt8.ofNat n).toNat = n :=
  UInt8.toNat_ofNat_of_lt' h

private theorem toNat_range (c : Char) :
    c.toNat < 0xD800 ∨ (0xDFFF < c.toNat ∧ c.toNat < 0x110000) := c.valid

theorem encode_cons (c : Char) (text : List Char) :
    encode (c :: text) = encodeChar c ++ encode text :=
  List.flatMap_cons

theorem encode_append (text rest : List Char) :
    encode (text ++ rest) = encode text ++ encode rest :=
  List.flatMap_append

/-! ## One character -/

theorem encodeChar_of_lt {c : Char} (h : c.toNat < 0x80) : encodeChar c = [UInt8.ofNat c.toNat] :=
  if_pos h

theorem le_of_mem_encodeChar {c : Char} (h : 0x80 ≤ c.toNat) {b : UInt8} (hb : b ∈ encodeChar c) :
    0x80 ≤ b.toNat := by
  have hrange := toNat_range c
  have hbyte : ∀ n, 0x80 ≤ n → n < 0x100 → 0x80 ≤ (UInt8.ofNat n).toNat := by
    intro n hlow hhigh
    rwa [toNat_ofNat hhigh]
  rw [encodeChar, if_neg (by omega)] at hb
  split at hb
  · simp only [List.mem_cons, List.not_mem_nil, or_false] at hb
    rcases hb with rfl | rfl
    all_goals exact hbyte _ (by omega) (by omega)
  split at hb
  all_goals
    simp only [List.mem_cons, List.not_mem_nil, or_false] at hb
  · rcases hb with rfl | rfl | rfl
    all_goals exact hbyte _ (by omega) (by omega)
  · rcases hb with rfl | rfl | rfl | rfl
    all_goals exact hbyte _ (by omega) (by omega)

private theorem isSecondOfThree_of_char {n : Nat} (hlow : 0x800 ≤ n)
    (hscalar : n < 0xD800 ∨ 0xDFFF < n) :
    isSecondOfThree (0xE0 + n / 0x1000) (0x80 + n / 0x40 % 0x40) = true := by
  rw [isSecondOfThree]
  split
  · simp only [Bool.and_eq_true, decide_eq_true_eq]
    omega
  · split
    · simp only [Bool.and_eq_true, decide_eq_true_eq]
      omega
    · simp only [isTail, Bool.and_eq_true, decide_eq_true_eq]
      omega

private theorem isSecondOfFour_of_char {n : Nat} (hlow : 0x10000 ≤ n) (hhigh : n < 0x110000) :
    isSecondOfFour (0xF0 + n / 0x40000) (0x80 + n / 0x1000 % 0x40) = true := by
  rw [isSecondOfFour]
  split
  · simp only [Bool.and_eq_true, decide_eq_true_eq]
    omega
  · split
    · simp only [Bool.and_eq_true, decide_eq_true_eq]
      omega
    · simp only [isTail, Bool.and_eq_true, decide_eq_true_eq]
      omega

private theorem isTail_of_digit {n : Nat} : isTail (0x80 + n % 0x40) = true := by
  simp only [isTail, Bool.and_eq_true, decide_eq_true_eq]
  omega

theorem decodeFrom_encodeChar (offset : Nat) (c : Char) (rest : Bytes) :
    decodeFrom offset (encodeChar c ++ rest)
      = (c :: ·) <$> decodeFrom (offset + (encodeChar c).length) rest := by
  have hrange := toNat_range c
  have hc : Char.ofNat c.toNat = c := Char.ofNat_toNat c
  generalize hn : c.toNat = n at hrange hc
  rw [encodeChar, hn]
  -- By the number of bytes, which the reader tells from the first of them.
  by_cases hone : n < 0x80
  · have h1 := toNat_ofNat (n := n) (by omega)
    rw [if_pos hone, List.singleton_append, decodeFrom.eq_def]
    dsimp only
    rw [h1, if_pos hone, hc]
    rfl
  by_cases htwo : n < 0x800
  · have h1 := toNat_ofNat (n := 0xC0 + n / 0x40) (by omega)
    have h2 := toNat_ofNat (n := 0x80 + n % 0x40) (by omega)
    rw [if_neg hone, if_pos htwo]
    change decodeFrom offset (_ :: _ :: rest) = _
    rw [decodeFrom.eq_def]
    dsimp only
    rw [h1, if_neg (by omega), if_pos (by omega), h2, if_pos isTail_of_digit,
      show (0xC0 + n / 0x40 - 0xC0) * 0x40 + (0x80 + n % 0x40 - 0x80) = n by omega, hc]
    rfl
  by_cases hthree : n < 0x10000
  · have h1 := toNat_ofNat (n := 0xE0 + n / 0x1000) (by omega)
    have h2 := toNat_ofNat (n := 0x80 + n / 0x40 % 0x40) (by omega)
    have h3 := toNat_ofNat (n := 0x80 + n % 0x40) (by omega)
    rw [if_neg hone, if_neg htwo, if_pos hthree]
    change decodeFrom offset (_ :: _ :: _ :: rest) = _
    rw [decodeFrom.eq_def]
    dsimp only
    rw [h1, if_neg (by omega), if_neg (by omega), if_pos (by omega), h2,
      if_pos (isSecondOfThree_of_char (by omega) (by omega)), h3, if_pos isTail_of_digit,
      show (0xE0 + n / 0x1000 - 0xE0) * 0x1000 + (0x80 + n / 0x40 % 0x40 - 0x80) * 0x40
        + (0x80 + n % 0x40 - 0x80) = n by omega, hc]
    rfl
  · have h1 := toNat_ofNat (n := 0xF0 + n / 0x40000) (by omega)
    have h2 := toNat_ofNat (n := 0x80 + n / 0x1000 % 0x40) (by omega)
    have h3 := toNat_ofNat (n := 0x80 + n / 0x40 % 0x40) (by omega)
    have h4 := toNat_ofNat (n := 0x80 + n % 0x40) (by omega)
    rw [if_neg hone, if_neg htwo, if_neg hthree]
    change decodeFrom offset (_ :: _ :: _ :: _ :: rest) = _
    rw [decodeFrom.eq_def]
    dsimp only
    rw [h1, if_neg (by omega), if_neg (by omega), if_neg (by omega), if_pos (by omega), h2,
      if_pos (isSecondOfFour_of_char (by omega) (by omega)), h3, if_pos isTail_of_digit, h4,
      if_pos isTail_of_digit,
      show (0xF0 + n / 0x40000 - 0xF0) * 0x40000 + (0x80 + n / 0x1000 % 0x40 - 0x80) * 0x1000
        + (0x80 + n / 0x40 % 0x40 - 0x80) * 0x40 + (0x80 + n % 0x40 - 0x80) = n by omega, hc]
    rfl

/-! ## Texts -/

theorem decodeFrom_encode (offset : Nat) (text : List Char) :
    decodeFrom offset (encode text) = .ok text := by
  induction text generalizing offset with
  | nil => rfl
  | cons c text ih =>
    rw [encode_cons, decodeFrom_encodeChar, ih]
    rfl

/-- Reading undoes writing. -/
theorem decode_encode (text : List Char) : decode (encode text) = .ok text :=
  decodeFrom_encode 0 text

theorem decodeString_encodeString (text : String) :
    decodeString (encodeString text) = .ok text := by
  rw [decodeString, encodeString, decode_encode]
  exact congrArg Except.ok String.ofList_toList

theorem encodeString_injective {a b : String} (h : encodeString a = encodeString b) : a = b := by
  have hdecoded : decodeString (encodeString a) = .ok b := by
    rw [h, decodeString_encodeString]
  rw [decodeString_encodeString] at hdecoded
  exact Except.ok.inj hdecoded

theorem encodeString_eq_nil_iff {text : String} : encodeString text = [] ↔ text = "" :=
  ⟨fun h ↦ encodeString_injective h, fun h ↦ h ▸ rfl⟩

/-! ## ASCII -/

theorem encodeChar_ofNat_toNat {b : UInt8} (h : b.toNat < 0x80) :
    encodeChar (Char.ofNat b.toNat) = [b] := by
  have hchar : (Char.ofNat b.toNat).toNat = b.toNat := by
    rw [Char.ofNat, dif_pos (show b.toNat.isValidChar from .inl (by omega))]
    rfl
  rw [encodeChar, hchar, if_pos h, UInt8.ofNat_toNat]

theorem encode_map_ofNat {bytes : Bytes} (h : ∀ b ∈ bytes, b.toNat < 0x80) :
    encode (bytes.map fun b ↦ Char.ofNat b.toNat) = bytes := by
  induction bytes with
  | nil => rfl
  | cons b bytes ih =>
    rw [List.map_cons, encode_cons, encodeChar_ofNat_toNat (h b List.mem_cons_self),
      ih fun c hc ↦ h c (List.mem_cons_of_mem _ hc), List.singleton_append]

theorem encodeString_toLatin {bytes : Bytes} (h : ∀ b ∈ bytes, b.toNat < 0x80) :
    encodeString (Bytes.toLatin bytes) = bytes := by
  rw [encodeString, Bytes.toLatin, String.toList_ofList, encode_map_ofNat h]

/-! ## One spelling only -/

private theorem toNat_charOfNat {n : Nat} (h : n < 0xD800 ∨ (0xDFFF < n ∧ n < 0x110000)) :
    (Char.ofNat n).toNat = n := by
  rw [Char.ofNat, dif_pos (show n.isValidChar from h)]
  rfl

private theorem ofNat_eq {n : Nat} {b : UInt8} (h : n = b.toNat) : UInt8.ofNat n = b := by
  rw [h, UInt8.ofNat_toNat]

/-- After these two bytes the code point is too large for a shorter spelling, and no surrogate. -/
private theorem range_of_isSecondOfThree {a b : Nat} (h : isSecondOfThree a b) :
    0x80 ≤ b ∧ b ≤ 0xBF ∧ (a = 0xE0 → 0xA0 ≤ b) ∧ (a = 0xED → b ≤ 0x9F) := by
  rw [isSecondOfThree] at h
  split at h
  · simp only [Bool.and_eq_true, decide_eq_true_eq] at h
    omega
  · split at h
    · simp only [Bool.and_eq_true, decide_eq_true_eq] at h
      omega
    · simp only [isTail, Bool.and_eq_true, decide_eq_true_eq] at h
      omega

/-- After these two bytes the code point is too large for a shorter spelling, and not too large. -/
private theorem range_of_isSecondOfFour {a b : Nat} (h : isSecondOfFour a b) :
    0x80 ≤ b ∧ b ≤ 0xBF ∧ (a = 0xF0 → 0x90 ≤ b) ∧ (a = 0xF4 → b ≤ 0x8F) := by
  rw [isSecondOfFour] at h
  split at h
  · simp only [Bool.and_eq_true, decide_eq_true_eq] at h
    omega
  · split at h
    · simp only [Bool.and_eq_true, decide_eq_true_eq] at h
      omega
    · simp only [isTail, Bool.and_eq_true, decide_eq_true_eq] at h
      omega

private theorem encodeChar_two {a b : UInt8} (ha : 0xC2 ≤ a.toNat ∧ a.toNat ≤ 0xDF)
    (hb : isTail b.toNat) :
    encodeChar (Char.ofNat ((a.toNat - 0xC0) * 0x40 + (b.toNat - 0x80))) = [a, b] := by
  simp only [isTail, Bool.and_eq_true, decide_eq_true_eq] at hb
  rw [encodeChar, toNat_charOfNat (by omega), if_neg (by omega), if_pos (by omega),
    @ofNat_eq _ a (by omega), @ofNat_eq _ b (by omega)]

private theorem encodeChar_three {a b c : UInt8} (ha : 0xE0 ≤ a.toNat ∧ a.toNat ≤ 0xEF)
    (hb : isSecondOfThree a.toNat b.toNat) (hc : isTail c.toNat) :
    encodeChar (Char.ofNat ((a.toNat - 0xE0) * 0x1000 + (b.toNat - 0x80) * 0x40
      + (c.toNat - 0x80))) = [a, b, c] := by
  have hrange := range_of_isSecondOfThree hb
  simp only [isTail, Bool.and_eq_true, decide_eq_true_eq] at hc
  rw [encodeChar, toNat_charOfNat (by omega), if_neg (by omega), if_neg (by omega),
    if_pos (by omega), @ofNat_eq _ a (by omega), @ofNat_eq _ b (by omega),
    @ofNat_eq _ c (by omega)]

private theorem encodeChar_four {a b c d : UInt8} (ha : 0xF0 ≤ a.toNat ∧ a.toNat ≤ 0xF4)
    (hb : isSecondOfFour a.toNat b.toNat) (hc : isTail c.toNat) (hd : isTail d.toNat) :
    encodeChar (Char.ofNat ((a.toNat - 0xF0) * 0x40000 + (b.toNat - 0x80) * 0x1000
      + (c.toNat - 0x80) * 0x40 + (d.toNat - 0x80))) = [a, b, c, d] := by
  have hrange := range_of_isSecondOfFour hb
  simp only [isTail, Bool.and_eq_true, decide_eq_true_eq] at hc hd
  rw [encodeChar, toNat_charOfNat (by omega), if_neg (by omega), if_neg (by omega),
    if_neg (by omega), @ofNat_eq _ a (by omega), @ofNat_eq _ b (by omega),
    @ofNat_eq _ c (by omega), @ofNat_eq _ d (by omega)]

theorem eq_encode_of_decodeFrom {offset : Nat} {bytes : Bytes} {text : List Char}
    (h : decodeFrom offset bytes = .ok text) : bytes = encode text := by
  fun_induction decodeFrom offset bytes generalizing text with
  | case1 =>
    cases h
    rfl
  | case2 offset a rest hone ih =>
    obtain ⟨text, hrest, rfl⟩ := map_eq_ok_iff.mp h
    rw [encode_cons, ← ih hrest, encodeChar_ofNat_toNat hone]
    rfl
  | case4 offset a _ ha b rest hb ih =>
    obtain ⟨text, hrest, rfl⟩ := map_eq_ok_iff.mp h
    rw [encode_cons, ← ih hrest, encodeChar_two ha hb]
    rfl
  | case8 offset a _ _ ha b hb c rest hc ih =>
    obtain ⟨text, hrest, rfl⟩ := map_eq_ok_iff.mp h
    rw [encode_cons, ← ih hrest, encodeChar_three ha hb hc]
    rfl
  | case14 offset a _ _ _ ha b hb c hc d rest hd ih =>
    obtain ⟨text, hrest, rfl⟩ := map_eq_ok_iff.mp h
    rw [encode_cons, ← ih hrest, encodeChar_four ha hb hc hd]
    rfl
  | _ => cases h

/-- **One spelling.** Bytes are read as a text exactly when they are its spelling. -/
theorem decode_eq_ok_iff {bytes : Bytes} {text : List Char} :
    decode bytes = .ok text ↔ bytes = encode text :=
  ⟨eq_encode_of_decodeFrom, fun h ↦ h ▸ decode_encode text⟩

theorem decodeString_eq_ok_iff {bytes : Bytes} {text : String} :
    decodeString bytes = .ok text ↔ bytes = encodeString text := by
  rw [decodeString, map_eq_ok_iff, encodeString]
  constructor
  · rintro ⟨chars, hchars, rfl⟩
    rw [String.toList_ofList]
    exact decode_eq_ok_iff.mp hchars
  · intro h
    exact ⟨text.toList, decode_eq_ok_iff.mpr h, String.ofList_toList⟩

/-! ## Order -/

private theorem ofNat_lt {m n : Nat} (hm : m < 256) (hn : n < 256) :
    UInt8.ofNat m < UInt8.ofNat n ↔ m < n := by
  rw [UInt8.lt_iff_toNat_lt, toNat_ofNat hm, toNat_ofNat hn]

private theorem ofNat_inj {m n : Nat} (hm : m < 256) (hn : n < 256) :
    UInt8.ofNat m = UInt8.ofNat n ↔ m = n := by
  rw [← UInt8.toNat_inj, toNat_ofNat hm, toNat_ofNat hn]

private theorem encodeChar_ne_nil (c : Char) : encodeChar c ≠ [] := by
  rw [encodeChar]
  repeat' split
  all_goals exact List.cons_ne_nil _ _

/-- A character below another has bytes that come first, whatever follows either. -/
theorem encodeChar_append_lt {c d : Char} (h : c < d) (s t : Bytes) :
    encodeChar c ++ s < encodeChar d ++ t := by
  have hlt : c.toNat < d.toNat := h
  have hc := toNat_range c
  have hd := toNat_range d
  rw [encodeChar, encodeChar]
  generalize c.toNat = m at hlt hc ⊢
  generalize d.toNat = n at hlt hd ⊢
  repeat' split
  all_goals
    simp (disch := omega) only [List.cons_append, List.nil_append, List.cons_lt_cons_iff, ofNat_lt,
      ofNat_inj]
    omega

theorem encode_lt_encode {a b : List Char} (h : a < b) : encode a < encode b := by
  induction a generalizing b with
  | nil =>
    cases b with
    | nil => exact absurd h (List.lt_irrefl _)
    | cons d b =>
      rw [encode_cons]
      cases hd : encodeChar d with
      | nil => exact absurd hd (encodeChar_ne_nil d)
      | cons x rest => exact List.nil_lt_cons x _
  | cons c a ih =>
    cases b with
    | nil => exact absurd h (List.not_lt_nil _)
    | cons d b =>
      rw [encode_cons, encode_cons]
      rcases List.cons_lt_cons_iff.mp h with hlt | ⟨rfl, hlt⟩
      · exact encodeChar_append_lt hlt _ _
      · exact List.append_left_lt (ih hlt)

/-- The order of texts is that of their bytes. -/
theorem encodeString_lt_encodeString_iff {a b : String} :
    encodeString a < encodeString b ↔ a < b := by
  rw [encodeString, encodeString, String.lt_iff]
  refine ⟨fun h ↦ ?_, encode_lt_encode⟩
  rcases lt_trichotomy a.toList b.toList with hlt | heq | hgt
  · exact hlt
  · rw [heq] at h
    exact absurd h (List.lt_irrefl _)
  · exact absurd h (List.lt_asymm (encode_lt_encode hgt))

end DualSeal.Utf8
