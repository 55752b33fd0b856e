import DualSeal.Json.Reader
import DualSeal.Json.Writer
import DualSeal.Proofs.Text.Utf8

/-!
# Strings are read back

A character is written as itself, as a letter behind a backslash, or as a number; the reader undoes
each of the three (`stringBytes?_escapeChar`), and never takes a quote of the text for the one that
closes it. So a string is read back whatever characters it has, and what stands behind it is left
(`reads_textChars`).
-/

namespace DualSeal

namespace Json

/-! ## Characters -/

/-- A byte that stands in a string as it is. -/
def IsPlain (b : UInt8) : Prop := b ≠ ascii '"' ∧ b ≠ ascii '\\' ∧ ¬ b < 32

/-- What the reader does with bytes in front of a string, given what it does with the rest. -/
abbrev prepend (bytes : Bytes) (result : Option (Bytes × Bytes)) : Option (Bytes × Bytes) :=
  result.map fun (others, after) ↦ (bytes ++ others, after)

theorem stringBytes?_plain {bytes : Bytes} (h : ∀ b ∈ bytes, IsPlain b) (rest : Bytes) :
    stringBytes? (bytes ++ rest) = prepend bytes (stringBytes? rest) := by
  induction bytes with
  | nil => simp [prepend]
  | cons b bytes ih =>
    obtain ⟨⟨hquote, hslash, hcontrol⟩, hbytes⟩ := List.forall_mem_cons.mp h
    rw [List.cons_append, stringBytes?.eq_def]
    dsimp only
    rw [if_neg hquote, if_neg hslash, if_neg hcontrol, ih hbytes]
    simp [prepend, Function.comp_def]

theorem stringBytes?_escaped {e c : UInt8} (h : escaped? e = some c) (rest : Bytes) :
    stringBytes? (ascii '\\' :: e :: rest) = prepend [c] (stringBytes? rest) := by
  have hletter : e ≠ ascii 'u' := by
    rintro rfl
    have hnone : escaped? (ascii 'u') = none := by decide
    rw [hnone] at h
    cases h
  rw [stringBytes?.eq_def]
  dsimp only
  rw [if_neg (by decide), if_pos rfl, if_neg hletter, h]
  rfl

theorem stringBytes?_numbered {h1 h2 h3 h4 : UInt8} {n : Nat} (h : hex4? h1 h2 h3 h4 = some n)
    (hscalar : n < 0xD800) (rest : Bytes) :
    stringBytes? (ascii '\\' :: ascii 'u' :: h1 :: h2 :: h3 :: h4 :: rest)
      = prepend (Utf8.encodeChar (Char.ofNat n)) (stringBytes? rest) := by
  have hhigh : isHighSurrogate n = false := by
    simp [isHighSurrogate, hscalar]
  have hlow : isLowSurrogate n = false := by
    simp [isLowSurrogate]
    omega
  rw [stringBytes?.eq_def]
  dsimp only
  rw [if_neg (by decide), if_pos rfl, if_pos rfl, h]
  simp only [hhigh, hlow]
  rfl

private theorem control_facts : ∀ n < 32,
    Utf8.encode ['\\', 'u', '0', '0', Hex.digit (n / 16), Hex.digit (n % 16)]
      = [ascii '\\', ascii 'u', ascii '0', ascii '0', ascii (Hex.digit (n / 16)),
        ascii (Hex.digit (n % 16))] ∧
    hex4? (ascii '0') (ascii '0') (ascii (Hex.digit (n / 16))) (ascii (Hex.digit (n % 16)))
      = some n := by
  decide +kernel

private theorem ascii_inj {c d : Char} (hc : c.toNat < 0x80) (hd : d.toNat < 0x80)
    (h : ascii c = ascii d) : c = d := by
  have hnat := congrArg UInt8.toNat h
  rw [UInt8.toNat_ofNat_of_lt' (hc.trans (by decide)),
    UInt8.toNat_ofNat_of_lt' (hd.trans (by decide))] at hnat
  exact Char.toNat_inj.mp hnat

theorem isPlain_of_mem_encodeChar {c : Char} (hquote : c ≠ '"') (hslash : c ≠ '\\')
    (hcontrol : ¬ c.toNat < 32) {b : UInt8} (hb : b ∈ Utf8.encodeChar c) : IsPlain b := by
  by_cases hascii : c.toNat < 0x80
  · rw [Utf8.encodeChar_of_lt hascii, List.mem_singleton] at hb
    subst hb
    refine ⟨fun h ↦ hquote (ascii_inj hascii (by decide) h),
      fun h ↦ hslash (ascii_inj hascii (by decide) h), ?_⟩
    rw [UInt8.lt_iff_toNat_lt, UInt8.toNat_ofNat_of_lt' (hascii.trans (by decide))]
    exact hcontrol
  · have hlow := Utf8.le_of_mem_encodeChar (Nat.le_of_not_lt hascii) hb
    refine ⟨?_, ?_, ?_⟩
    · rintro rfl
      exact absurd hlow (by decide)
    · rintro rfl
      exact absurd hlow (by decide)
    · rw [UInt8.lt_iff_toNat_lt]
      exact fun h ↦ absurd (h.trans_le (by decide : (32 : UInt8).toNat ≤ 0x80)) (by omega)

theorem stringBytes?_letter {c letter : Char} (hc : c.toNat < 0x80) (hletter : letter.toNat < 0x80)
    (h : escaped? (ascii letter) = some (ascii c)) (rest : Bytes) :
    stringBytes? (Utf8.encode ['\\', letter] ++ rest)
      = prepend (Utf8.encodeChar c) (stringBytes? rest) := by
  have hbytes : Utf8.encode ['\\', letter] = [ascii '\\', ascii letter] := by
    rw [Utf8.encode_cons, Utf8.encode_cons, Utf8.encodeChar_of_lt hletter]
    rfl
  rw [hbytes, Utf8.encodeChar_of_lt hc]
  exact stringBytes?_escaped h rest

/-- **Characters.** Reading undoes the escape of a character. -/
theorem stringBytes?_escapeChar (c : Char) (rest : Bytes) :
    stringBytes? (Utf8.encode (escapeChar c) ++ rest)
      = prepend (Utf8.encodeChar c) (stringBytes? rest) := by
  have hescape : ∀ {letter : Char}, c.toNat < 0x80 → letter.toNat < 0x80 →
      escaped? (ascii letter) = some (ascii c) → stringBytes? (Utf8.encode ['\\', letter] ++ rest)
        = prepend (Utf8.encodeChar c) (stringBytes? rest) :=
    fun hc hletter h ↦ stringBytes?_letter hc hletter h rest
  rw [escapeChar]
  split
  · subst c
    exact hescape (by decide) (by decide) (by decide)
  split
  · subst c
    exact hescape (by decide) (by decide) (by decide)
  rename_i hquote hslash
  -- The controls that have a letter of their own.
  iterate 5
    split
    case isTrue hc => exact hescape (by omega) (by decide) (by rw [ascii, ascii, hc]; decide)
  split
  · rename_i hcontrol
    obtain ⟨hbytes, hnumber⟩ := control_facts c.toNat hcontrol
    have hread := stringBytes?_numbered hnumber (hcontrol.trans (by decide)) rest
    rw [Char.ofNat_toNat] at hread
    rw [hbytes]
    exact hread
  · rename_i hcontrol
    rw [Utf8.encode, List.flatMap_singleton]
    exact stringBytes?_plain (fun b ↦ isPlain_of_mem_encodeChar hquote hslash hcontrol) rest

/-! ## Strings -/

theorem stringBytes?_escaped_text (text : List Char) (rest : Bytes) :
    stringBytes? (Utf8.encode (text.flatMap escapeChar) ++ ascii '"' :: rest)
      = some (Utf8.encode text, rest) := by
  induction text with
  | nil =>
    rw [List.flatMap_nil, Utf8.encode, List.flatMap_nil, List.nil_append, stringBytes?.eq_def]
    exact if_pos rfl
  | cons c text ih =>
    rw [List.flatMap_cons, Utf8.encode_append, List.append_assoc, stringBytes?_escapeChar, ih]
    rfl

theorem encode_textChars (text : String) (rest : Bytes) :
    Utf8.encode (textChars text) ++ rest
      = ascii '"' :: (Utf8.encode (text.toList.flatMap escapeChar) ++ ascii '"' :: rest) := by
  rw [textChars, Utf8.encode_cons, Utf8.encode_append, List.append_assoc, List.append_assoc]
  rfl

/-- The inside of a string is read back, and the text behind it is left. -/
theorem string_escaped_text (text : String) (rest : Bytes) :
    string (Utf8.encode (text.toList.flatMap escapeChar) ++ ascii '"' :: rest)
      = .ok (text, rest) := by
  have hdecode : Utf8.decodeString (Utf8.encode text.toList) = .ok text :=
    Utf8.decodeString_encodeString text
  rw [string, stringBytes?_escaped_text]
  dsimp only
  rw [hdecode]

/-- The reader takes the bytes for the value, and leaves what stands behind them. -/
def Reads {α : Type} (read : Bytes → Except Fault (α × Bytes)) (value : α) (bytes : Bytes) : Prop :=
  ∀ rest, read (bytes ++ rest) = .ok (value, rest)

theorem skipBlanks_cons {b : UInt8} (h : isBlank b = false) (rest : Bytes) :
    skipBlanks (b :: rest) = b :: rest :=
  List.dropWhile_cons_of_neg (by simp [h])

/-- **Strings.** Reading undoes writing. -/
theorem reads_textChars (text : String) : Reads Json.text text (Utf8.encode (textChars text)) := by
  intro rest
  rw [encode_textChars, Json.text, expecting, skipBlanks_cons (by decide)]
  exact (if_pos rfl).trans (string_escaped_text text rest)

end Json

end DualSeal
