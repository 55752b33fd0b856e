import DualSeal.Text.Numeral
import Mathlib.Data.Nat.Digits.Defs

/-!
# Numerals are read back

A written number consists of digits of its base, spells that number, and has no zero in front of
others (`value_write`, `head?_write_ne`). So reading takes exactly these digits, where no further
digit stands behind them (`read?_write`).
-/

namespace DualSeal

/-! ## Where a stretch of characters ends -/

section Stretches

variable {p : Char → Bool} {c : Char} {rest : List Char}

/-- The text does not begin with a character of this kind. -/
def StopsAt (p : Char → Bool) (rest : List Char) : Prop := ∀ c, rest.head? = some c → p c = false

theorem stopsAt_nil : StopsAt p [] := nofun

theorem stopsAt_cons (h : p c = false) : StopsAt p (c :: rest) := by
  intro d hd
  exact Option.some.inj hd ▸ h

theorem takeWhile_of_stopsAt (h : StopsAt p rest) :
    rest.takeWhile p = [] ∧ rest.dropWhile p = rest := by
  cases rest with
  | nil => exact ⟨rfl, rfl⟩
  | cons c rest =>
    have hc : ¬ p c = true := by simp [h c rfl]
    exact ⟨List.takeWhile_cons_of_neg hc, List.dropWhile_cons_of_neg hc⟩

/-- Characters of one kind, and a text that does not go on with it, are told apart. -/
theorem takeWhile_append_of_stopsAt {front : List Char} (hfront : ∀ c ∈ front, p c = true)
    (hrest : StopsAt p rest) :
    (front ++ rest).takeWhile p = front ∧ (front ++ rest).dropWhile p = rest := by
  obtain ⟨htake, hdrop⟩ := takeWhile_of_stopsAt hrest
  rw [List.takeWhile_append_of_pos hfront, List.dropWhile_append_of_pos hfront, htake, hdrop]
  exact ⟨List.append_nil _, rfl⟩

end Stretches

namespace Numeral

variable {base bound n : Nat} {rest : List Char}

/-! ## Digits -/

private theorem digitChar_facts : ∀ d < 16,
    Hex.value? d.digitChar = some d ∧ (d.digitChar = '0' → d = 0) := by
  decide

theorem value?_digitChar {d : Nat} (h : d < 16) : Hex.value? d.digitChar = some d :=
  (digitChar_facts d h).1

theorem isDigit_digitChar {d : Nat} (hbase : base ≤ 16) (h : d < base) :
    isDigit base d.digitChar = true := by
  rw [isDigit, value?_digitChar (h.trans_le hbase)]
  exact decide_eq_true h

theorem isDigit_mono {small large : Nat} (hle : small ≤ large) {c : Char}
    (h : isDigit small c = true) : isDigit large c = true := by
  rw [isDigit] at h ⊢
  cases hvalue : Hex.value? c with
  | none =>
    rw [hvalue] at h
    cases h
  | some value =>
    rw [hvalue] at h
    exact decide_eq_true ((of_decide_eq_true h).trans_le hle)

theorem stopsAt_isDigit_mono {small large : Nat} (hle : small ≤ large)
    (h : StopsAt (isDigit large) rest) : StopsAt (isDigit small) rest :=
  fun c hc ↦ Bool.eq_false_iff.mpr fun hdigit ↦
    Bool.eq_false_iff.mp (h c hc) (isDigit_mono hle hdigit)

theorem ne_of_isDigit {c d : Char} (hc : isDigit base c = true) (hd : isDigit base d = false) :
    c ≠ d := by
  rintro rfl
  rw [hc] at hd
  cases hd

/-! ## Written numbers -/

theorem write_of_lt (h : n < base) : write base n = [n.digitChar] := Nat.toDigits_of_lt_base h

theorem write_of_le (hbase : 1 < base) (h : base ≤ n) :
    write base n = write base (n / base) ++ [(n % base).digitChar] :=
  Nat.toDigits_of_base_le hbase h

theorem write_ne_nil : write base n ≠ [] := Nat.toDigits_ne_nil

theorem isDigit_of_mem_write (hbase : 1 < base) (hdigits : base ≤ 16) :
    ∀ c ∈ write base n, isDigit base c = true := by
  induction n using Nat.strong_induction_on with
  | _ n ih =>
    have hpos : 0 < base := Nat.zero_lt_of_lt hbase
    rcases Nat.lt_or_ge n base with hlt | hle
    · rw [write_of_lt hlt, List.forall_mem_singleton]
      exact isDigit_digitChar hdigits hlt
    · rw [write_of_le hbase hle, List.forall_mem_append, List.forall_mem_singleton]
      exact ⟨ih _ (Nat.div_lt_self (hpos.trans_le hle) hbase),
        isDigit_digitChar hdigits (Nat.mod_lt _ hpos)⟩

theorem value_concat (digits : List Char) (c : Char) :
    value base (digits ++ [c]) = value base digits * base + (Hex.value? c).getD 0 := by
  rw [value, List.foldl_append]
  rfl

/-- The digits of a number spell it. -/
theorem value_write (hbase : 1 < base) (hdigits : base ≤ 16) : value base (write base n) = n := by
  induction n using Nat.strong_induction_on with
  | _ n ih =>
    have hpos : 0 < base := Nat.zero_lt_of_lt hbase
    rcases Nat.lt_or_ge n base with hlt | hle
    · rw [write_of_lt hlt, ← List.nil_append [n.digitChar], value_concat,
        value?_digitChar (hlt.trans_le hdigits)]
      exact (congrArg (· + n) (Nat.zero_mul base)).trans (Nat.zero_add n)
    · rw [write_of_le hbase hle, value_concat, ih _ (Nat.div_lt_self (hpos.trans_le hle) hbase),
        value?_digitChar ((Nat.mod_lt _ hpos).trans_le hdigits)]
      exact Nat.div_add_mod' n base

theorem head?_write_ne (hbase : 1 < base) (hdigits : base ≤ 16) (h : n ≠ 0) :
    (write base n).head? ≠ some '0' := by
  induction n using Nat.strong_induction_on with
  | _ n ih =>
    have hpos : 0 < base := Nat.zero_lt_of_lt hbase
    rcases Nat.lt_or_ge n base with hlt | hle
    · rw [write_of_lt hlt]
      exact fun hzero ↦ h ((digitChar_facts n (hlt.trans_le hdigits)).2 (Option.some.inj hzero))
    · have hrest := ih _ (Nat.div_lt_self (hpos.trans_le hle) hbase) (Nat.div_pos hle hpos).ne'
      rw [write_of_le hbase hle]
      cases hfront : write base (n / base) with
      | nil => exact absurd hfront write_ne_nil
      | cons c front =>
        rw [hfront] at hrest
        exact hrest

/-- **Numerals.** Reading undoes writing. -/
theorem read?_write (hbase : 1 < base) (hdigits : base ≤ 16) (hn : n < bound)
    (hrest : StopsAt (isDigit base) rest) :
    read? base bound (write base n ++ rest) = some (n, rest) := by
  obtain ⟨htake, hdrop⟩ :=
    takeWhile_append_of_stopsAt (isDigit_of_mem_write (n := n) hbase hdigits) hrest
  have hread : ¬ (write base n = [] ∨ bound ≤ n) := not_or.mpr ⟨write_ne_nil, Nat.not_le.mpr hn⟩
  rw [read?, htake, hdrop, value_write hbase hdigits, if_neg hread]

end Numeral

end DualSeal
