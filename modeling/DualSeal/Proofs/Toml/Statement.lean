import DualSeal.Proofs.Toml.Text
import DualSeal.Toml.Statement

/-!
# Lines of TOML are read back

A line with a header or an entry is read as what it says (`readsAs_header`, `readsAs_entry`), for
names without quotes and values that are read as far as their line goes (`IsWritten`): strings, and
integers below the bound that the format has (`isWritten_integer`). A written integer is taken
neither for a date nor for a number with a fraction, because a line break stands behind its digits.
-/

namespace DualSeal.Toml

open Numeral

variable {n : Nat} {c : Char} {text rest behind : List Char}

/-! ## Integers -/

theorem isPrefixOf?_cons_of_ne {d : Char} {word : List Char} (h : d ≠ c) :
    (d :: word).isPrefixOf? (c :: rest) = none :=
  isPrefixOf?_cons_cons.trans (if_neg h)

theorem mark?_eq_none {mark : Char} (h : text.head? ≠ some mark) : mark? mark text = none := by
  cases text with
  | nil => rfl
  | cons c text => exact if_neg fun hc ↦ h (congrArg some hc)

theorem mark?_eq_none_of_fixed? {count low high value : Nat} {mark : Char}
    (h : fixed? count low high text = some (value, rest)) (hmark : isDigit 10 mark = false)
    (hhead : (text.dropWhile (isDigit 10)).head? ≠ some mark) : mark? mark rest = none := by
  rw [fixed?] at h
  split_ifs at h with hdigits
  obtain rfl := (Prod.mk.inj (Option.some.inj h)).2
  rw [← List.take_append_drop count text,
    List.dropWhile_append_of_pos (List.all_eq_true.mp hdigits.2.1)] at hhead
  refine mark?_eq_none fun hrest ↦ hhead ?_
  obtain ⟨behind, hbehind⟩ := List.head?_eq_some_iff.mp hrest
  rw [hbehind, List.dropWhile_cons_of_neg (by simp [hmark])]
  rfl

theorem time?_eq_none (h : text.dropWhile (isDigit 10) = '\n' :: behind) : time? text = none := by
  -- A number that is long enough begins like a year or an hour, but no dash or colon follows.
  have hdate : date? text = none := by
    rw [date?]
    rcases hyear : fixed? 4 0 9999 text with _ | ⟨year, rest⟩
    · rfl
    · have hmark := mark?_eq_none_of_fixed? hyear (by decide : isDigit 10 '-' = false) (by simp [h])
      simp [hmark]
  have hclock : clock? text = none := by
    rw [clock?]
    rcases hhour : fixed? 2 0 23 text with _ | ⟨hour, rest⟩
    · rfl
    · have hmark := mark?_eq_none_of_fixed? hhour (by decide : isDigit 10 ':' = false) (by simp [h])
      simp [hmark]
  rw [time?, hdate, hclock]
  rfl

theorem digitTail?_append {digits : List Char} (hdigits : ∀ c ∈ digits, isDigit 10 c = true) :
    digitTail? 10 (digits ++ '\n' :: rest) = some (digits, '\n' :: rest) := by
  induction digits with
  | nil => rfl
  | cons c digits ih =>
    obtain ⟨hc, hdigits⟩ := List.forall_mem_cons.mp hdigits
    rw [List.cons_append, digitTail?, if_pos hc, ih hdigits]
    rfl

theorem exists_write_eq_cons (n : Nat) :
    ∃ c digits, write 10 n = c :: digits ∧ isDigit 10 c = true ∧ (c = '0' → digits = []) := by
  have hdigits := isDigit_of_mem_write (n := n) (by decide : 1 < 10) (by decide)
  rcases hwrite : write 10 n with _ | ⟨c, digits⟩
  · exact absurd hwrite write_ne_nil
  · rw [hwrite] at hdigits
    refine ⟨c, digits, rfl, hdigits c List.mem_cons_self, ?_⟩
    rintro rfl
    by_cases hn : n = 0
    · rw [hn] at hwrite
      exact (List.cons.inj hwrite).2.symm
    · exact absurd (congrArg List.head? hwrite) (head?_write_ne (by decide) (by decide) hn)

/-- **Digits.** All of them are read. -/
theorem decimal?_write (n : Nat) (rest : List Char) :
    decimal? (write 10 n ++ '\n' :: rest) = some (write 10 n, '\n' :: rest) := by
  have hdigits := isDigit_of_mem_write (n := n) (by decide : 1 < 10) (by decide)
  obtain ⟨c, digits, hwrite, hc, hzero⟩ := exists_write_eq_cons n
  rw [hwrite] at hdigits ⊢
  rw [decimal?, List.cons_append]
  split_ifs with hhead
  · obtain rfl : c = '0' := Option.some.inj hhead
    rw [hzero rfl]
    rfl
  · have hdigit : (((c :: (digits ++ '\n' :: rest)).head?.map (isDigit 10)).getD false) = true := hc
    rw [digits?, if_pos hdigit]
    exact digitTail?_append hdigits

/-- A digit is neither a sign nor the beginning of a word. -/
theorem sign_cons (h : isDigit 10 c = true) : sign (c :: rest) = (false, c :: rest) := by
  unfold sign
  split
  · next hc => exact absurd (List.cons.inj hc).1 (ne_of_isDigit h (by decide))
  · next hc => exact absurd (List.cons.inj hc).1 (ne_of_isDigit h (by decide))
  · rfl

theorem real?_write (n : Nat) (rest : List Char) :
    real? (write 10 n ++ '\n' :: rest) = none := by
  have hdecimal := decimal?_write n rest
  obtain ⟨c, digits, hwrite, hc, -⟩ := exists_write_eq_cons n
  rw [hwrite, List.cons_append] at hdecimal ⊢
  have hinf : "inf".toList.isPrefixOf? (c :: (digits ++ '\n' :: rest)) = none :=
    isPrefixOf?_cons_of_ne (ne_of_isDigit hc (by decide)).symm
  have hnan : "nan".toList.isPrefixOf? (c :: (digits ++ '\n' :: rest)) = none :=
    isPrefixOf?_cons_of_ne (ne_of_isDigit hc (by decide)).symm
  rw [real?, sign_cons hc]
  dsimp only
  rw [hinf, hnan]
  dsimp only
  rw [hdecimal]
  rfl

theorem integer?_write (hn : n < integerBound) (rest : List Char) :
    integer? (write 10 n ++ '\n' :: rest) = some (.integer n, '\n' :: rest) := by
  have hdecimal := decimal?_write n rest
  have hvalue := value_write (n := n) (by decide : 1 < 10) (by decide)
  obtain ⟨c, digits, hwrite, hc, hzero⟩ := exists_write_eq_cons n
  rw [hwrite] at hvalue
  rw [hwrite, List.cons_append] at hdecimal ⊢
  -- A zero in front is the whole number, so that no mark of another base stands behind it.
  have hmark : ∀ mark behind, mark ≠ '\n' →
      c :: (digits ++ '\n' :: rest) ≠ '0' :: mark :: behind := by
    intro mark behind hmark h
    obtain ⟨hc, hdigits⟩ := List.cons.inj h
    rw [hzero hc] at hdigits
    exact hmark (List.cons.inj hdigits).1.symm
  unfold integer?
  split
  · next h => exact absurd h (hmark 'x' _ (by decide))
  · next h => exact absurd h (hmark 'o' _ (by decide))
  · next h => exact absurd h (hmark 'b' _ (by decide))
  · rw [decimalInteger?, sign_cons hc]
    dsimp only
    rw [hdecimal]
    simp [hvalue, hn]

/-- **Integers.** Below the bound, reading undoes writing, at the end of a line. -/
theorem number?_write (hn : n < integerBound) (rest : List Char) :
    number? (write 10 n ++ '\n' :: rest) = some (.integer n, '\n' :: rest) := by
  have hdigits := isDigit_of_mem_write (n := n) (by decide : 1 < 10) (by decide)
  have hends : StopsAt (isDigit 10) ('\n' :: rest) := stopsAt_cons (by decide)
  rw [number?, time?_eq_none (takeWhile_append_of_stopsAt hdigits hends).2, real?_write,
    integer?_write hn]
  rfl

/-! ## Values -/

/-- What is written for a value: it is read as the value, up to the end of the line. -/
def IsWritten (written : List Char) (value : Value) : Prop :=
  ∀ rest, readValue? nestingLimit (skipSpaces (written ++ '\n' :: rest))
    = some (value, '\n' :: rest)

theorem skipSpaces_cons (h : isSpace c = false) : skipSpaces (c :: rest) = c :: rest :=
  List.dropWhile_cons_of_neg (by simp [h])

theorem exists_writeText_eq_cons (text : List Char) :
    ∃ mark inside, writeText text = mark :: inside ∧ (mark = quote ∨ mark = apostrophe) := by
  rw [writeText]
  cases styleOf text
  · exact ⟨quote, _, rfl, .inl rfl⟩
  · exact ⟨apostrophe, _, rfl, .inr rfl⟩
  · exact ⟨quote, _, rfl, .inl rfl⟩
  · exact ⟨apostrophe, _, rfl, .inr rfl⟩

theorem isWritten_text (text : List Char) :
    IsWritten (writeText text) (.text (String.ofList text)) := by
  intro rest
  have hread : readText? (writeText text ++ '\n' :: rest)
      = some (String.ofList text, '\n' :: rest) :=
    readText?_writeText text (stopsAt_cons (by decide)) (stopsAt_cons (by decide))
  obtain ⟨mark, inside, hwrite, hmark⟩ := exists_writeText_eq_cons text
  have hspace : isSpace mark = false := by rcases hmark with rfl | rfl <;> decide
  rw [hwrite, List.cons_append] at hread ⊢
  rw [skipSpaces_cons hspace, readValue?.eq_def]
  dsimp only
  rw [if_pos hmark, hread]
  rfl

theorem isWritten_string (text : String) : IsWritten (writeText text.toList) (.text text) := by
  have hwritten := isWritten_text text.toList
  rwa [String.ofList_toList] at hwritten

theorem isWritten_integer (h : n < integerBound) : IsWritten (write 10 n) (.integer n) := by
  intro rest
  have hread := number?_write h rest
  obtain ⟨c, digits, hwrite, hc, -⟩ := exists_write_eq_cons n
  have hne : ∀ d, isDigit 10 d = false → c ≠ d := fun d ↦ ne_of_isDigit hc
  have hspace : isSpace c = false := by simp [isSpace, hne ' ' (by decide), hne '\t' (by decide)]
  have htrue : "true".toList.isPrefixOf? (c :: (digits ++ '\n' :: rest)) = none :=
    isPrefixOf?_cons_of_ne (hne 't' (by decide)).symm
  have hfalse : "false".toList.isPrefixOf? (c :: (digits ++ '\n' :: rest)) = none :=
    isPrefixOf?_cons_of_ne (hne 'f' (by decide)).symm
  rw [hwrite, List.cons_append] at hread ⊢
  rw [skipSpaces_cons hspace, readValue?.eq_def]
  dsimp only
  rw [htrue, hfalse, if_neg (not_or.mpr ⟨hne quote (by decide), hne apostrophe (by decide)⟩),
    if_neg (hne '[' (by decide)), if_neg (hne '\x7b' (by decide)), hread]

/-! ## Names -/

/-- A name that needs no quotes. -/
def IsBare (name : String) : Prop := name.toList ≠ [] ∧ name.toList.all isBare = true

instance (name : String) : Decidable (IsBare name) := inferInstanceAs (Decidable (_ ∧ _))

theorem IsBare.exists_eq_cons {name : String} (h : IsBare name) :
    ∃ c chars, name.toList = c :: chars ∧ isBare c = true := by
  obtain ⟨hne, hbare⟩ := h
  obtain ⟨c, chars, hchars⟩ := List.exists_cons_of_ne_nil hne
  exact ⟨c, chars, hchars, List.all_eq_true.mp hbare c (hchars ▸ List.mem_cons_self)⟩

theorem isSpace_of_isBare (h : isBare c = true) : isSpace c = false := by
  refine Bool.eq_false_iff.mpr fun hspace ↦ ?_
  rcases Bool.or_eq_true_iff.mp hspace with hc | hc
  · rw [of_decide_eq_true hc] at h
    cases h
  · rw [of_decide_eq_true hc] at h
    cases h

theorem isPlain_of_isBare (h : isBare c = true) : isPlain c = true := by
  have hcode : ∀ code < 128, isBare (Char.ofNat code) = true →
      isPlain (Char.ofNat code) = true := by
    decide
  rcases Nat.lt_or_ge c.toNat 128 with hlt | hge
  · have hplain := hcode c.toNat hlt
    rw [Char.ofNat_toNat] at hplain
    exact hplain h
  · simp only [isPlain, Bool.or_eq_true, Bool.and_eq_true, decide_eq_true_eq]
    omega

theorem readKey?_bare {name : String} {room : Nat} (hname : IsBare name)
    (hrest : StopsAt isBare rest) (hpoint : (skipSpaces rest).head? ≠ some '.') :
    readKey? (room + 1) (name.toList ++ rest) = some (⟨[], name⟩, skipSpaces rest) := by
  obtain ⟨htake, hdrop⟩ := takeWhile_append_of_stopsAt (List.all_eq_true.mp hname.2) hrest
  have hspaces : skipSpaces (name.toList ++ rest) = name.toList ++ rest := by
    obtain ⟨c, chars, hchars, hc⟩ := hname.exists_eq_cons
    rw [hchars]
    exact skipSpaces_cons (isSpace_of_isBare hc)
  have hread : readName? (name.toList ++ rest) = some (name, rest) := by
    rw [readName?, htake, hdrop, if_neg hname.1, String.ofList_toList]
  simp [readKey?, hspaces, hread, mark?_eq_none hpoint]

/-! ## Lines -/

/-- A text that is read as some statements, whatever the bound, as long as it exceeds the number of
its characters. -/
def ReadsAs (text : List Char) (statements : List Statement) : Prop :=
  ∀ fuel, text.length < fuel → readStatements? fuel text = some statements

theorem readsAs_nil : ReadsAs [] [] := by
  intro fuel hfuel
  obtain ⟨fuel, rfl⟩ := Nat.exists_eq_add_of_le' hfuel
  rfl

variable {statement : Statement} {statements : List Statement} {name : String}

theorem readsAs_blank (h : ReadsAs rest statements) : ReadsAs ('\n' :: rest) statements := by
  intro fuel hfuel
  obtain ⟨fuel, rfl⟩ := Nat.exists_eq_add_of_le' (Nat.zero_lt_of_lt hfuel)
  have hread : readStatements? (fuel + 1) ('\n' :: rest) = readStatements? fuel rest := rfl
  rw [hread]
  exact h fuel (Nat.lt_of_succ_lt_succ hfuel)

theorem readsAs_line (hspace : isSpace c = false) (hcomment : c ≠ '#') (hplain : isPlain c = true)
    (hread : readStatement? (c :: text) = some (statement, '\n' :: rest))
    (hlength : rest.length ≤ text.length) (h : ReadsAs rest statements) :
    ReadsAs (c :: text) (statement :: statements) := by
  intro fuel hfuel
  obtain ⟨fuel, rfl⟩ := Nat.exists_eq_add_of_le' (Nat.zero_lt_of_lt hfuel)
  have hend : lineEnd? ('\n' :: rest) = some rest := rfl
  have hrest := h fuel (hlength.trans_lt (Nat.lt_of_succ_lt_succ hfuel))
  rw [readStatements?, skipSpaces_cons hspace]
  simp [hcomment, newline?_cons hplain, hread, hend, hrest]

theorem readsAs_header (hname : IsBare name) (h : ReadsAs rest statements) :
    ReadsAs ('[' :: (name.toList ++ ']' :: '\n' :: rest)) (.header ⟨[], name⟩ :: statements) := by
  have hkey : readKey? nestingLimit (name.toList ++ ']' :: '\n' :: rest)
      = some (⟨[], name⟩, ']' :: '\n' :: rest) :=
    readKey?_bare hname (stopsAt_cons (by decide)) fun hpoint ↦
      absurd (Option.some.inj hpoint) (by decide)
  obtain ⟨c, chars, hchars, hc⟩ := hname.exists_eq_cons
  have hread : readStatement? ('[' :: (name.toList ++ ']' :: '\n' :: rest))
      = some (.header ⟨[], name⟩, '\n' :: rest) := by
    unfold readStatement?
    split
    · next htext =>
      rw [hchars] at htext
      obtain rfl := (List.cons.inj (List.cons.inj htext).2).1
      cases hc
    · next htext =>
      obtain rfl := (List.cons.inj htext).2
      rw [hkey]
      rfl
    · next htext => exact absurd rfl (htext _)
  refine readsAs_line (by decide) (by decide) (by decide) hread ?_ h
  simp only [List.length_append, List.length_cons]
  omega

theorem readsAs_entry {written : List Char} {value : Value} (hname : IsBare name)
    (hwritten : IsWritten written value) (h : ReadsAs rest statements) :
    ReadsAs (name.toList ++ ' ' :: '=' :: ' ' :: (written ++ '\n' :: rest))
      (.entry ⟨[], name⟩ value :: statements) := by
  have hkey : readKey? nestingLimit (name.toList ++ ' ' :: '=' :: ' ' :: (written ++ '\n' :: rest))
      = some (⟨[], name⟩, '=' :: ' ' :: (written ++ '\n' :: rest)) :=
    readKey?_bare hname (stopsAt_cons (by decide)) fun hpoint ↦
      absurd (Option.some.inj hpoint) (by decide)
  have hpair : readPair? (readValue? nestingLimit)
      (name.toList ++ ' ' :: '=' :: ' ' :: (written ++ '\n' :: rest))
        = some ((⟨[], name⟩, value), '\n' :: rest) := by
    have hmark (behind) : mark? '=' ('=' :: behind) = some behind := rfl
    have hvalue : readValue? nestingLimit (skipSpaces (' ' :: (written ++ '\n' :: rest)))
        = some (value, '\n' :: rest) := hwritten rest
    simp [readPair?, hkey, hmark, hvalue]
  obtain ⟨c, chars, hchars, hc⟩ := hname.exists_eq_cons
  rw [hchars, List.cons_append] at hpair ⊢
  have hread : readStatement? (c :: (chars ++ ' ' :: '=' :: ' ' :: (written ++ '\n' :: rest)))
      = some (.entry ⟨[], name⟩ value, '\n' :: rest) := by
    unfold readStatement?
    split
    · next htext =>
      obtain rfl := (List.cons.inj htext).1
      cases hc
    · next htext =>
      obtain rfl := (List.cons.inj htext).1
      cases hc
    · rw [hpair]
      rfl
  refine readsAs_line (isSpace_of_isBare hc) ?_ (isPlain_of_isBare hc) hread ?_ h
  · rintro rfl
    cases hc
  · simp only [List.length_append, List.length_cons]
    omega

end DualSeal.Toml
