import DualSeal.Encoding.Base64
import DualSeal.Proofs.Outcome
import Mathlib.Data.FinEnum

/-!
# Base64 has one spelling for every byte string

Reading undoes writing, and what can be read is what writing makes of the bytes that were read
(`decode_eq_ok_iff`): padding, leftover bits and foreign bytes leave no second spelling.

The two directions meet in the symbols: a symbol's value is the number it was made from, and a byte
with a value is the symbol of that value.
-/

namespace DualSeal.Base64

/-! ## Symbols -/

theorem value?_symbol {n : Nat} (h : n < 64) : value? (symbol n) = some n := by
  revert n
  decide +kernel

theorem symbol_ne_pad {n : Nat} (h : n < 64) : symbol n ≠ pad := by
  revert n
  decide +kernel

private theorem all_value? : ∀ b : UInt8, (value? b).all fun n ↦ n < 64 ∧ symbol n = b := by
  decide +kernel

theorem symbol_of_value? {b : UInt8} {n : Nat} (h : value? b = some n) :
    n < 64 ∧ symbol n = b := by
  have hall := all_value? b
  rw [h] at hall
  simpa using hall

/-- A byte that may occur in a spelling. -/
def IsSpelling (b : UInt8) : Prop := (value? b).isSome ∨ b = pad

instance (b : UInt8) : Decidable (IsSpelling b) := by
  unfold IsSpelling
  infer_instance

theorem isSpelling_symbol {n : Nat} (h : n < 64) : IsSpelling (symbol n) := by
  left
  rw [value?_symbol h]
  rfl

theorem isSpelling_pad : IsSpelling pad := .inr rfl

theorem isSpelling_of_mem_encode {bytes : Bytes} {b : UInt8} (h : b ∈ encode bytes) :
    IsSpelling b := by
  induction bytes using encode.induct with
  | case1 => cases h
  | case2 a =>
    have ha := a.toNat_lt
    simp only [encode, List.mem_cons, List.not_mem_nil, or_false] at h
    rcases h with rfl | rfl | rfl | rfl
    · exact isSpelling_symbol (by omega)
    · exact isSpelling_symbol (by omega)
    · exact isSpelling_pad
    · exact isSpelling_pad
  | case3 a c =>
    have ha := a.toNat_lt
    have hc := c.toNat_lt
    simp only [encode, List.mem_cons, List.not_mem_nil, or_false] at h
    rcases h with rfl | rfl | rfl | rfl
    · exact isSpelling_symbol (by omega)
    · exact isSpelling_symbol (by omega)
    · exact isSpelling_symbol (by omega)
    · exact isSpelling_pad
  | case4 a c d rest ih =>
    have ha := a.toNat_lt
    have hc := c.toNat_lt
    have hd := d.toNat_lt
    simp only [encode, quad, List.mem_append, List.mem_cons, List.not_mem_nil, or_false] at h
    rcases h with (rfl | rfl | rfl | rfl) | h
    · exact isSpelling_symbol (by omega)
    · exact isSpelling_symbol (by omega)
    · exact isSpelling_symbol (by omega)
    · exact isSpelling_symbol (by omega)
    · exact ih h

theorem length_encode_mod_four (bytes : Bytes) : (encode bytes).length % 4 = 0 := by
  induction bytes using encode.induct with
  | case1 => rfl
  | case2 a => simp [encode]
  | case3 a b => simp [encode]
  | case4 a b c rest ih =>
    rw [encode, List.length_append]
    exact (Nat.add_mod_left 4 _).trans ih

theorem encode_eq_nil_iff {bytes : Bytes} : encode bytes = [] ↔ bytes = [] := by
  cases bytes using encode.fun_cases <;> simp [encode, quad]

/-! ## Reading undoes writing -/

theorem valueAt_symbol {offset n : Nat} (h : n < 64) : valueAt offset (symbol n) = .ok n := by
  rw [valueAt, value?_symbol h]

theorem readTail_symbol {offset position n : Nat} (h : n < 64) (rest : Bytes) :
    readTail offset (symbol n :: rest) position
      = (readTail offset rest (position + 1)).map fun tail ↦ ⟨n :: tail.values, tail.padding⟩ := by
  rw [readTail, if_neg (symbol_ne_pad h), valueAt_symbol h]
  cases readTail offset rest (position + 1) <;> rfl

/-- The last quad is whatever is left when at most four bytes are. -/
theorem decodeFrom_of_length_le {offset : Nat} {text : Bytes} (hpos : 0 < text.length)
    (hle : text.length ≤ 4) : decodeFrom offset text = decodeLast offset text := by
  match text, hpos, hle with
  | [_], _, _ => rfl
  | [_, _], _, _ => rfl
  | [_, _, _], _, _ => rfl
  | [_, _, _, _], _, _ => rfl

theorem decodeFrom_symbols {offset a b c d : Nat} {rest : Bytes} (ha : a < 64) (hb : b < 64)
    (hc : c < 64) (hd : d < 64) (hrest : rest ≠ []) :
    decodeFrom offset (symbol a :: symbol b :: symbol c :: symbol d :: rest)
      = (decodeFrom (offset + 4) rest).map (bytesOfQuad a b c d ++ ·) := by
  obtain ⟨e, rest, rfl⟩ := List.exists_cons_of_ne_nil hrest
  rw [decodeFrom, valueAt_symbol ha, valueAt_symbol hb, valueAt_symbol hc, valueAt_symbol hd]
  cases decodeFrom (offset + 4) (e :: rest) <;> rfl

theorem bytesOfQuad_split (a b c : UInt8) :
    bytesOfQuad (a.toNat / 4) (a.toNat % 4 * 16 + b.toNat / 16) (b.toNat % 16 * 4 + c.toNat / 64)
      (c.toNat % 64) = [a, b, c] := by
  have ha := a.toNat_lt
  have hb := b.toNat_lt
  have hc := c.toNat_lt
  have h1 : a.toNat / 4 * 4 + (a.toNat % 4 * 16 + b.toNat / 16) / 16 = a.toNat := by omega
  have h2 : (a.toNat % 4 * 16 + b.toNat / 16) % 16 * 16 + (b.toNat % 16 * 4 + c.toNat / 64) / 4
      = b.toNat := by omega
  have h3 : (b.toNat % 16 * 4 + c.toNat / 64) % 4 * 64 + c.toNat % 64 = c.toNat := by omega
  rw [bytesOfQuad, h1, h2, h3, UInt8.ofNat_toNat, UInt8.ofNat_toNat, UInt8.ofNat_toNat]

theorem decodeFrom_encode (offset : Nat) (bytes : Bytes) :
    decodeFrom offset (encode bytes) = .ok bytes := by
  induction bytes using encode.induct generalizing offset with
  | case1 => rfl
  | case2 a =>
    have ha := a.toNat_lt
    have hbyte : a.toNat / 4 * 4 + a.toNat % 4 * 16 / 16 = a.toNat := by omega
    have htail : readTail offset (encode [a]) 0 = .ok ⟨[a.toNat / 4, a.toNat % 4 * 16], 2⟩ := by
      rw [encode, readTail_symbol (by omega), readTail_symbol (by omega)]
      rfl
    rw [decodeFrom_of_length_le (by simp [encode]) (by simp [encode]), decodeLast, htail, ok_bind]
    simp only [hbyte, UInt8.ofNat_toNat]
    rw [if_neg (by omega), if_neg (by omega)]
  | case3 a b =>
    have ha := a.toNat_lt
    have hb := b.toNat_lt
    have h1 : a.toNat / 4 * 4 + (a.toNat % 4 * 16 + b.toNat / 16) / 16 = a.toNat := by omega
    have h2 : (a.toNat % 4 * 16 + b.toNat / 16) % 16 * 16 + b.toNat % 16 * 4 / 4 = b.toNat := by
      omega
    have htail : readTail offset (encode [a, b]) 0
        = .ok ⟨[a.toNat / 4, a.toNat % 4 * 16 + b.toNat / 16, b.toNat % 16 * 4], 1⟩ := by
      rw [encode, readTail_symbol (by omega), readTail_symbol (by omega),
        readTail_symbol (by omega)]
      rfl
    rw [decodeFrom_of_length_le (by simp [encode]) (by simp [encode]), decodeLast, htail, ok_bind]
    simp only [h1, h2, UInt8.ofNat_toNat]
    rw [if_neg (by omega), if_neg (by omega)]
  | case4 a b c rest ih =>
    have ha := a.toNat_lt
    have hb := b.toNat_lt
    have hc := c.toNat_lt
    rw [encode, quad]
    -- The last three bytes are read as a tail without padding, earlier ones as a whole quad.
    by_cases hrest : rest = []
    · subst hrest
      have htail : readTail offset (quad a b c) 0
          = .ok ⟨[a.toNat / 4, a.toNat % 4 * 16 + b.toNat / 16, b.toNat % 16 * 4 + c.toNat / 64,
              c.toNat % 64], 0⟩ := by
        rw [quad, readTail_symbol (by omega), readTail_symbol (by omega),
          readTail_symbol (by omega), readTail_symbol (by omega)]
        rfl
      rw [quad] at htail
      rw [encode, List.append_nil, decodeFrom_of_length_le (by simp) (by simp), decodeLast, htail,
        ok_bind]
      exact congrArg Except.ok (bytesOfQuad_split a b c)
    · have hne : encode rest ≠ [] := fun h ↦ hrest (encode_eq_nil_iff.mp h)
      change decodeFrom offset (_ :: _ :: _ :: _ :: encode rest) = _
      rw [decodeFrom_symbols (by omega) (by omega) (by omega) (by omega) hne, ih,
        bytesOfQuad_split]
      rfl

/-- Reading undoes writing. -/
theorem decode_encode (bytes : Bytes) : decode (encode bytes) = .ok bytes := by
  rw [decode]
  cases hlast : (encode bytes).getLast? with
  | none =>
    rw [List.getLast?_eq_none_iff, encode_eq_nil_iff] at hlast
    rw [hlast]
  | some last =>
    have hlength := length_encode_mod_four bytes
    dsimp only
    rw [if_neg (by omega), decodeFrom_encode]

/-! ## One spelling only -/

theorem symbol_of_valueAt {offset n : Nat} {b : UInt8} (h : valueAt offset b = .ok n) :
    n < 64 ∧ symbol n = b := by
  rw [valueAt] at h
  split at h
  · cases h
    exact symbol_of_value? ‹_›
  · cases h

theorem eq_of_readTail {offset position : Nat} {text : Bytes} {tail : Tail}
    (h : readTail offset text position = .ok tail) :
    (∀ n ∈ tail.values, n < 64) ∧
      text = tail.values.map symbol ++ List.replicate tail.padding pad := by
  induction text generalizing position tail with
  | nil =>
    cases h
    simp
  | cons b rest ih =>
    rw [readTail] at h
    -- From the first padding on there is nothing else.
    by_cases hpad : b = pad
    · rw [if_pos hpad] at h
      split at h
      · cases h
      · split at h
        · rename_i hall
          cases h
          refine ⟨by simp, ?_⟩
          rw [List.map_nil, List.nil_append, List.replicate_succ, hpad]
          refine congrArg _ (List.eq_replicate_iff.mpr ⟨rfl, fun c hc ↦ ?_⟩)
          simpa using List.all_eq_true.mp hall c hc
        · cases h
    · rw [if_neg hpad] at h
      obtain ⟨n, hn, h⟩ := bind_eq_ok_iff.mp h
      obtain ⟨tail', htail', h⟩ := bind_eq_ok_iff.mp h
      obtain ⟨hvalues, hrest⟩ := ih htail'
      have hsymbol := symbol_of_valueAt hn
      cases h
      refine ⟨?_, ?_⟩
      · intro m hm
        rcases List.mem_cons.mp hm with rfl | hm
        · exact hsymbol.1
        · exact hvalues m hm
      · rw [List.map_cons, hsymbol.2, List.cons_append, ← hrest]

private theorem toNat_first {a b : Nat} (ha : a < 64) (hb : b < 64) :
    (UInt8.ofNat (a * 4 + b / 16)).toNat = a * 4 + b / 16 :=
  UInt8.toNat_ofNat_of_lt' (by rw [UInt8.size]; omega)

private theorem toNat_second {b c : Nat} (hc : c < 64) :
    (UInt8.ofNat (b % 16 * 16 + c / 4)).toNat = b % 16 * 16 + c / 4 :=
  UInt8.toNat_ofNat_of_lt' (by rw [UInt8.size]; omega)

private theorem toNat_third {c d : Nat} (hd : d < 64) :
    (UInt8.ofNat (c % 4 * 64 + d)).toNat = c % 4 * 64 + d :=
  UInt8.toNat_ofNat_of_lt' (by rw [UInt8.size]; omega)

theorem quad_of_values {a b c d : Nat} (ha : a < 64) (hb : b < 64) (hc : c < 64) (hd : d < 64) :
    quad (UInt8.ofNat (a * 4 + b / 16)) (UInt8.ofNat (b % 16 * 16 + c / 4))
      (UInt8.ofNat (c % 4 * 64 + d)) = [symbol a, symbol b, symbol c, symbol d] := by
  rw [quad, toNat_first ha hb, toNat_second hc, toNat_third hd,
    show (a * 4 + b / 16) / 4 = a by omega,
    show (a * 4 + b / 16) % 4 * 16 + (b % 16 * 16 + c / 4) / 16 = b by omega,
    show (b % 16 * 16 + c / 4) % 16 * 4 + (c % 4 * 64 + d) / 64 = c by omega,
    show (c % 4 * 64 + d) % 64 = d by omega]

theorem eq_encode_of_decodeLast {offset : Nat} {text bytes : Bytes} (hlength : text.length ≤ 4)
    (h : decodeLast offset text = .ok bytes) : text = encode bytes := by
  obtain ⟨⟨values, padding⟩, htail, h⟩ := bind_eq_ok_iff.mp h
  obtain ⟨hvalues, htext⟩ := eq_of_readTail htail
  simp only at hvalues htext h
  -- Two or three values leave bits over, which the reader wants to be zero.
  match values, hvalues, htext, h with
  | [a, b], hvalues, htext, h =>
    have ha : a < 64 := hvalues a (by simp)
    have hb : b < 64 := hvalues b (by simp)
    simp only at h
    split at h
    · cases h
    · split at h
      · cases h
      · rename_i hpadding hlast
        cases h
        rw [htext, encode, toNat_first ha hb, show padding = 2 by omega,
          show (a * 4 + b / 16) / 4 = a by omega, show (a * 4 + b / 16) % 4 * 16 = b by omega]
        rfl
  | [a, b, c], hvalues, htext, h =>
    have ha : a < 64 := hvalues a (by simp)
    have hb : b < 64 := hvalues b (by simp)
    have hc : c < 64 := hvalues c (by simp)
    simp only at h
    split at h
    · cases h
    · split at h
      · cases h
      · rename_i hpadding hlast
        cases h
        rw [htext, encode, toNat_first ha hb, toNat_second hc, show padding = 1 by omega,
          show (a * 4 + b / 16) / 4 = a by omega,
          show (a * 4 + b / 16) % 4 * 16 + (b % 16 * 16 + c / 4) / 16 = b by omega,
          show (b % 16 * 16 + c / 4) % 16 * 4 = c by omega]
        rfl
  | a :: b :: c :: d :: values, hvalues, htext, h =>
    have hcount := congrArg List.length htext
    simp only [List.map_cons, List.length_append, List.length_cons, List.length_map,
      List.length_replicate] at hcount
    obtain rfl : values = [] := List.length_eq_zero_iff.mp (by omega)
    obtain rfl : padding = 0 := by omega
    cases h
    rw [htext, bytesOfQuad, encode, quad_of_values (hvalues a (by simp)) (hvalues b (by simp))
      (hvalues c (by simp)) (hvalues d (by simp))]
    rfl

theorem eq_encode_of_decodeFrom {offset : Nat} {text bytes : Bytes}
    (h : decodeFrom offset text = .ok bytes) : text = encode bytes := by
  induction offset, text using decodeFrom.induct generalizing bytes with
  | case1 =>
    cases h
    rfl
  | case2 offset a b c d e rest ih =>
    obtain ⟨va, hva, h⟩ := bind_eq_ok_iff.mp h
    obtain ⟨vb, hvb, h⟩ := bind_eq_ok_iff.mp h
    obtain ⟨vc, hvc, h⟩ := bind_eq_ok_iff.mp h
    obtain ⟨vd, hvd, h⟩ := bind_eq_ok_iff.mp h
    obtain ⟨bytes', hbytes', hpure⟩ := bind_eq_ok_iff.mp h
    cases hpure
    obtain ⟨ha, rfl⟩ := symbol_of_valueAt hva
    obtain ⟨hb, rfl⟩ := symbol_of_valueAt hvb
    obtain ⟨hc, rfl⟩ := symbol_of_valueAt hvc
    obtain ⟨hd, rfl⟩ := symbol_of_valueAt hvd
    rw [ih hbytes', bytesOfQuad]
    change _ = encode (_ :: _ :: _ :: bytes')
    rw [encode, quad_of_values ha hb hc hd]
    rfl
  | case3 offset text hne hshort =>
    have hlength : text.length ≤ 4 := by
      match text, hshort with
      | [], _ | [_], _ | [_, _], _ | [_, _, _], _ | [_, _, _, _], _ => simp
      | a :: b :: c :: d :: e :: rest, hshort => exact absurd rfl (hshort a b c d e rest)
    rw [decodeFrom_of_length_le (List.length_pos_iff.mpr hne) hlength] at h
    exact eq_encode_of_decodeLast hlength h

/-- **Canonicity.** A text is read as some bytes exactly when it is their spelling. -/
theorem decode_eq_ok_iff {text bytes : Bytes} :
    decode text = .ok bytes ↔ text = encode bytes := by
  constructor
  · intro h
    rw [decode] at h
    cases hlast : text.getLast? with
    | none =>
      rw [hlast] at h
      cases h
      exact List.getLast?_eq_none_iff.mp hlast
    | some last =>
      rw [hlast] at h
      dsimp only at h
      split at h
      · cases h
      · exact eq_encode_of_decodeFrom h
  · rintro rfl
    exact decode_encode bytes

end DualSeal.Base64
