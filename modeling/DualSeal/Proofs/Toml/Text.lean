import DualSeal.Proofs.Text.Numeral
import DualSeal.Toml.Text
import Mathlib.Data.List.TakeWhile

/-!
# TOML strings are read back

Every text is read from what is written for it, whichever form it takes (`readText?_writeText`).

An escape is read as its character (`escape?_escapeChars`). Between three marks, what has to be kept
apart from the closing marks are those of the text: at most two of them stand in a row
(`run_add_marksAt_le`), so that no three close too early (`closeLong?_append_eq_none`), and those
right in front of the closing marks are read with them (`closeLong?_append`).
-/

namespace DualSeal.Toml

open Numeral

variable {mark c : Char} {text rest : List Char}

/-! ## Escapes -/

/-- A character that has an escape. -/
def HasEscape (c : Char) : Prop := needsEscape c ∨ c = '\t' ∨ c = '\n' ∨ c = quote ∨ c = '\\'

private theorem hexEscape?_code : ∀ code < 128,
    hexEscape? 4 ['0', '0', Char.toUpper (Hex.digit (code / 16)),
      Char.toUpper (Hex.digit (code % 16))] = some (Char.ofNat code) := by
  decide

theorem toNat_lt_of_needsEscape (h : needsEscape c = true) : c.toNat < 128 := by
  simp only [needsEscape, isPlain, Bool.and_eq_true, Bool.not_eq_true', Bool.or_eq_false_iff,
    Bool.and_eq_false_iff, decide_eq_false_iff_not] at h
  omega

theorem toNat_lt_of_hasEscape (h : HasEscape c) : c.toNat < 128 := by
  rcases h with h | rfl | rfl | rfl | rfl
  · exact toNat_lt_of_needsEscape h
  all_goals decide

/-- **Escapes.** Behind its backslash, the escape of a character is read as it; what stands there
does not look like the end of a line. -/
theorem escape?_escapeChars (h : HasEscape c) :
    ∃ name, escapeChars c = '\\' :: name ∧
      (∀ rest, escape? (name ++ rest) = some (c, name.length)) ∧
      ∀ rest, newline? ((name ++ rest).dropWhile isSpace) = none := by
  unfold escapeChars
  split_ifs with hback htab hbreak hfeed hreturn hself
  · exact ⟨['b'], rfl, fun _ ↦ hback ▸ rfl, fun _ ↦ rfl⟩
  · exact ⟨['t'], rfl, fun _ ↦ htab ▸ rfl, fun _ ↦ rfl⟩
  · exact ⟨['n'], rfl, fun _ ↦ hbreak ▸ rfl, fun _ ↦ rfl⟩
  · exact ⟨['f'], rfl, fun _ ↦ hfeed ▸ rfl, fun _ ↦ rfl⟩
  · exact ⟨['r'], rfl, fun _ ↦ hreturn ▸ rfl, fun _ ↦ rfl⟩
  · refine ⟨[c], rfl, ?_, ?_⟩
    · rcases hself with rfl | rfl <;> exact fun _ ↦ rfl
    · rcases hself with rfl | rfl <;> exact fun _ ↦ rfl
  · -- The characters that are left are controls, whose codes have two digits.
    refine ⟨_, rfl, fun rest ↦ ?_, fun _ ↦ rfl⟩
    have hcode := hexEscape?_code c.toNat (toNat_lt_of_hasEscape h)
    rw [Char.ofNat_toNat] at hcode
    exact congrArg (Option.map (·, 5)) hcode

/-- What is written for a character: a mark that is still in no danger stands as it is, and so does
what needs no escape. -/
theorem escapeText_cons (long : Bool) (room run : Nat) (c : Char) (text : List Char) :
    (c = quote ∧ run < room ∧
      escapeText long room run (c :: text) = c :: escapeText long room (run + 1) text) ∨
    (HasEscape c ∧
      escapeText long room run (c :: text) = escapeChars c ++ escapeText long room 0 text) ∨
    (c ≠ quote ∧ c ≠ '\\' ∧ (isPlain c = true ∨ c = '\n' ∧ long = true) ∧
      escapeText long room run (c :: text) = c :: escapeText long room 0 text) := by
  rw [escapeText]
  split_ifs with hquote hrun hescape
  · exact .inl ⟨hquote, hrun, rfl⟩
  · exact .inr (.inl ⟨.inr (.inr (.inr (.inl hquote))), rfl⟩)
  · refine .inr (.inl ⟨?_, rfl⟩)
    rcases hescape with h | h | h | ⟨h, -⟩
    · exact .inl h
    · exact .inr (.inl h)
    · exact .inr (.inr (.inr (.inr h)))
    · exact .inr (.inr (.inl h))
  · obtain ⟨hneeds, -, hslash, hbreak⟩ := by simpa only [not_or] using hescape
    refine .inr (.inr ⟨hquote, hslash, ?_, rfl⟩)
    by_cases hc : c = '\n'
    · exact .inr ⟨hc, by simpa [hc] using hbreak⟩
    · exact .inl (by simpa [needsEscape, hc] using hneeds)

/-! ## Strings on one line -/

theorem readBasic?_append (front rest : List Char) :
    readBasic? front.length (front ++ rest) = readBasic? 0 rest := by
  induction front with
  | nil => rfl
  | cons c front ih => exact ih

theorem readBasic?_escapeChars (h : HasEscape c) :
    readBasic? 0 (escapeChars c ++ rest) = consRead c (readBasic? 0 rest) := by
  obtain ⟨name, hname, hescape, -⟩ := escape?_escapeChars h
  rw [hname, List.cons_append, readBasic?, if_neg (by decide), if_pos rfl, hescape]
  dsimp only
  rw [readBasic?_append]

/-- **Strings on one line.** Reading undoes escaping. -/
theorem readBasic?_escapeText (text rest : List Char) :
    readBasic? 0 (escapeText false 0 0 text ++ quote :: rest) = some (text, rest) := by
  induction text with
  | nil => rfl
  | cons c text ih =>
    rcases escapeText_cons false 0 0 c text with
      ⟨-, hrun, -⟩ | ⟨hescape, htext⟩ | ⟨hquote, hslash, hc, htext⟩
    · exact absurd hrun (Nat.not_lt_zero 0)
    · rw [htext, List.append_assoc, readBasic?_escapeChars hescape, ih]
      rfl
    · have hplain : isPlain c = true := hc.resolve_right (by simp)
      rw [htext, List.cons_append, readBasic?, if_neg hquote, if_neg hslash, if_pos hplain, ih]
      rfl

/-- **Strings without escapes on one line.** They are read as they are. -/
theorem readLiteral?_append (h : ∀ c ∈ text, isPlain c = true ∧ c ≠ apostrophe) :
    readLiteral? (text ++ apostrophe :: rest) = some (text, rest) := by
  have hends : StopsAt (fun c ↦ isPlain c && c ≠ apostrophe) (apostrophe :: rest) :=
    stopsAt_cons (by decide)
  obtain ⟨htake, hdrop⟩ := takeWhile_append_of_stopsAt (fun c hc ↦ by simpa using h c hc) hends
  rw [readLiteral?, htake, hdrop]
  rfl

/-! ## Marks in a row -/

/-- How many marks stand in front. -/
def marksAt (mark : Char) (text : List Char) : Nat := (text.takeWhile (· = mark)).length

@[simp] theorem marksAt_cons_self : marksAt mark (mark :: text) = marksAt mark text + 1 := by
  simp [marksAt]

theorem marksAt_cons_of_ne (h : c ≠ mark) : marksAt mark (c :: text) = 0 := by
  rw [marksAt, List.takeWhile_cons_of_neg (by simpa using h)]
  rfl

theorem marksAt_of_stopsAt (h : StopsAt (· = mark) text) : marksAt mark text = 0 := by
  rw [marksAt, (takeWhile_of_stopsAt h).1]
  rfl

/-- A single mark on the inside of what is not one. -/
theorem marksAt_append_cons_le (htext : StopsAt (· = mark) text) (hrest : StopsAt (· = mark) rest) :
    marksAt mark (text ++ mark :: rest) ≤ 1 := by
  cases text with
  | nil => rw [List.nil_append, marksAt_cons_self, marksAt_of_stopsAt hrest]
  | cons c text =>
    rw [List.cons_append, marksAt_cons_of_ne (of_decide_eq_false (htext c rfl))]
    exact Nat.zero_le 1

theorem isPrefixOf?_cons_cons {d : Char} {word : List Char} :
    (d :: word).isPrefixOf? (c :: rest) = if d = c then word.isPrefixOf? rest else none := by
  have hunfold : (d :: word).isPrefixOf? (c :: rest)
      = if (d == c) = true then word.isPrefixOf? rest else none := rfl
  simp only [hunfold, beq_iff_eq]

theorem isPrefixOf?_replicate (count : Nat) (text : List Char) :
    (List.replicate count mark).isPrefixOf? text
      = if count ≤ marksAt mark text then some (text.drop count) else none := by
  induction count generalizing text with
  | zero => cases text <;> rfl
  | succ count ih =>
    cases text with
    | nil => rfl
    | cons c text =>
      rw [List.replicate_succ, isPrefixOf?_cons_cons]
      by_cases hc : c = mark
      · subst hc
        simp [ih]
      · simp [marksAt_cons_of_ne hc, Ne.symm hc]

theorem marksAt_of_forall (h : ∀ c ∈ text, c = mark) : marksAt mark text = text.length := by
  have hmarks : ∀ c ∈ text, decide (c = mark) = true := fun c hc ↦ decide_eq_true (h c hc)
  rw [marksAt, List.takeWhile_eq_self_iff.mpr hmarks]

/-- Marks behind a text that does not consist of them do not count. -/
theorem marksAt_append (h : ¬ ∀ c ∈ text, c = mark) :
    marksAt mark (text ++ rest) = marksAt mark text := by
  induction text with
  | nil => exact absurd nofun h
  | cons c text ih =>
    by_cases hc : c = mark
    · subst hc
      have hmore : ¬ ∀ d ∈ text, d = c := fun hall ↦ h (List.forall_mem_cons.mpr ⟨rfl, hall⟩)
      rw [List.cons_append, marksAt_cons_self, marksAt_cons_self, ih hmore]
    · rw [List.cons_append, marksAt_cons_of_ne hc, marksAt_cons_of_ne hc]

theorem closeLong?_eq_none (h : marksAt mark text ≤ 2) : closeLong? mark text = none := by
  rw [closeLong?, isPrefixOf?_replicate, if_neg (Nat.not_le.mpr (Nat.lt_succ_of_le h))]
  rfl

theorem closeLong?_append_eq_none (h : ¬ ∀ c ∈ text, c = mark) (hmarks : marksAt mark text ≤ 2) :
    closeLong? mark (text ++ rest) = none := by
  refine closeLong?_eq_none ?_
  rwa [marksAt_append h]

/-- Up to two marks in front of the closing ones are read with them. -/
theorem closeLong?_append (h : ∀ c ∈ text, c = mark) (hlength : text.length ≤ 2)
    (hrest : StopsAt (· = mark) rest) :
    closeLong? mark (text ++ (List.replicate 3 mark ++ rest)) = some (text, rest) := by
  have hswap : text ++ (List.replicate 3 mark ++ rest)
      = List.replicate 3 mark ++ (text ++ rest) := by
    rw [List.eq_replicate_of_mem h, ← List.append_assoc, ← List.append_assoc,
      List.replicate_append_replicate, List.replicate_append_replicate, Nat.add_comm]
  -- The first three marks are taken for the closing ones, and as many as the text has are left.
  have hmarks : 3 ≤ marksAt mark (List.replicate 3 mark ++ (text ++ rest)) := by
    simp only [List.replicate_succ, List.replicate_zero, List.cons_append, List.nil_append,
      marksAt_cons_self]
    omega
  have htake : (text ++ rest).takeWhile (· = mark) = text :=
    (takeWhile_append_of_stopsAt (fun c hc ↦ decide_eq_true (h c hc)) hrest).1
  rw [closeLong?, hswap, isPrefixOf?_replicate, if_pos hmarks,
    List.drop_left' List.length_replicate, Option.map_some, htake, List.take_of_length_le hlength]
  dsimp only
  rw [List.drop_left]

/-! ## Strings on several lines -/

theorem readLongBasic?_append (front rest : List Char) :
    readLongBasic? (.characters front.length) (front ++ rest)
      = readLongBasic? (.characters 0) rest := by
  induction front with
  | nil => rfl
  | cons c front ih => exact ih

theorem readLongBasic?_of_closeLong? {closed : List Char × List Char}
    (h : closeLong? quote text = some closed) :
    readLongBasic? (.characters 0) text = some closed := by
  cases text with
  | nil => cases h
  | cons c text =>
    have hstep : longStep false c text = .close closed.1 closed.2 := by
      simp [longStep, h]
    rw [readLongBasic?, hstep] <;> nofun

theorem readLongBasic?_escapeChars (h : HasEscape c) :
    readLongBasic? (.characters 0) (escapeChars c ++ rest)
      = consRead c (readLongBasic? (.characters 0) rest) := by
  obtain ⟨name, hname, hescape, hbreak⟩ := escape?_escapeChars h
  have hclose : closeLong? quote ('\\' :: (name ++ rest)) = none :=
    closeLong?_eq_none (by simp [marksAt_cons_of_ne (show '\\' ≠ quote by decide)])
  have hstep : longStep false '\\' (name ++ rest) = .read c (.characters name.length) := by
    simp [longStep, hclose, hescape, hbreak]
  rw [hname, List.cons_append, readLongBasic?, hstep]
  · exact congrArg (consRead c) (readLongBasic?_append name rest)
  all_goals nofun

theorem readLongBasic?_cons (hclose : closeLong? quote (c :: rest) = none) (hslash : c ≠ '\\')
    (hc : isPlain c = true ∨ c = '\n') :
    readLongBasic? (.characters 0) (c :: rest)
      = consRead c (readLongBasic? (.characters 0) rest) := by
  have hstep : longStep false c rest = .read c (.characters 0) := by
    simp [longStep, hclose, hslash, hc]
  rw [readLongBasic?, hstep] <;> nofun

/-- Never do more than two marks stand in a row. -/
theorem run_add_marksAt_le {run : Nat} (hrun : run ≤ 2) (text : List Char) :
    run + marksAt quote (escapeText true 2 run text) ≤ 2 := by
  induction text generalizing run with
  | nil => exact hrun
  | cons c text ih =>
    rcases escapeText_cons true 2 run c text with
      ⟨rfl, hlt, htext⟩ | ⟨hescape, htext⟩ | ⟨hquote, -, -, htext⟩
    · have hmore : run + 1 + marksAt quote (escapeText true 2 (run + 1) text) ≤ 2 :=
        ih (Nat.succ_le_of_lt hlt)
      rw [htext, marksAt_cons_self]
      omega
    · obtain ⟨name, hname, -, -⟩ := escape?_escapeChars hescape
      rwa [htext, hname, List.cons_append, marksAt_cons_of_ne (by decide)]
    · rwa [htext, marksAt_cons_of_ne hquote]

/-- What is written as marks alone consists of them. -/
theorem escapeText_eq_of_forall {run : Nat} (h : ∀ c ∈ escapeText true 2 run text, c = quote) :
    escapeText true 2 run text = text := by
  induction text generalizing run with
  | nil => rfl
  | cons c text ih =>
    rcases escapeText_cons true 2 run c text with
      ⟨-, -, htext⟩ | ⟨hescape, htext⟩ | ⟨hquote, -, -, htext⟩
    · rw [htext] at h ⊢
      exact congrArg (c :: ·) (ih (List.forall_mem_cons.mp h).2)
    · obtain ⟨name, hname, -, -⟩ := escape?_escapeChars hescape
      rw [htext, hname] at h
      exact absurd (h '\\' List.mem_cons_self) (by decide)
    · rw [htext] at h
      exact absurd (h c List.mem_cons_self) hquote

/-- **Strings on several lines.** Reading undoes escaping, with up to two marks already in front. -/
theorem readLongBasic?_escapeText {run : Nat} (hrun : run ≤ 2) (text : List Char)
    (hrest : StopsAt (· = quote) rest) :
    readLongBasic? (.characters 0) (escapeText true 2 run text ++ (List.replicate 3 quote ++ rest))
      = some (text, rest) := by
  induction text generalizing run with
  | nil => exact readLongBasic?_of_closeLong? (closeLong?_append nofun (Nat.zero_le 2) hrest)
  | cons c text ih =>
    have hmarks := Nat.le_of_add_left_le (run_add_marksAt_le hrun (c :: text))
    rcases escapeText_cons true 2 run c text with
      ⟨rfl, hlt, htext⟩ | ⟨hescape, htext⟩ | ⟨hquote, hslash, hc, htext⟩
    · -- A mark either stands in front of the closing ones, with nothing but marks between, or some
      -- other character comes first and the mark is read like any other.
      by_cases hall : ∀ c ∈ escapeText true 2 run (quote :: text), c = quote
      · rw [marksAt_of_forall hall] at hmarks
        have hclose := closeLong?_append hall hmarks hrest
        rw [escapeText_eq_of_forall hall] at hclose ⊢
        exact readLongBasic?_of_closeLong? hclose
      · have hclose : closeLong? quote (escapeText true 2 run (quote :: text)
            ++ (List.replicate 3 quote ++ rest)) = none := closeLong?_append_eq_none hall hmarks
        rw [htext, List.cons_append] at hclose ⊢
        rw [readLongBasic?_cons hclose (by decide) (.inl (by decide)), ih (Nat.succ_le_of_lt hlt)]
        rfl
    · rw [htext, List.append_assoc, readLongBasic?_escapeChars hescape, ih (Nat.zero_le 2)]
      rfl
    · have hclose : closeLong? quote
          (c :: (escapeText true 2 0 text ++ (List.replicate 3 quote ++ rest))) = none :=
        closeLong?_eq_none (by simp [marksAt_cons_of_ne hquote])
      rw [htext, List.cons_append, readLongBasic?_cons hclose hslash (hc.imp_right And.left),
        ih (Nat.zero_le 2)]
      rfl

theorem add_marksAt_le_longestRun (before : Nat) (text : List Char) :
    before + marksAt mark text ≤ longestRun mark before text := by
  induction text generalizing before with
  | nil => exact Nat.le_refl before
  | cons c text ih =>
    rw [longestRun]
    split_ifs with hc
    · subst hc
      have hmore := ih (before + 1)
      rw [marksAt_cons_self]
      omega
    · rw [marksAt_cons_of_ne hc]
      exact Nat.le_max_left _ _

theorem readLongLiteral?_of_closeLong? {closed : List Char × List Char}
    (h : closeLong? apostrophe text = some closed) : readLongLiteral? text = some closed := by
  cases text with
  | nil => cases h
  | cons c text => rw [readLongLiteral?, h]

theorem longestRun_of_cons {before : Nat} (h : longestRun mark before (c :: text) ≤ 2) :
    ∃ before, longestRun mark before text ≤ 2 := by
  rw [longestRun] at h
  split_ifs at h
  · exact ⟨_, h⟩
  · exact ⟨_, (Nat.le_max_right _ _).trans h⟩

/-- **Strings without escapes on several lines.** They are read as they are. -/
theorem readLongLiteral?_append {before : Nat} (hplain : ∀ c ∈ text, isPlain c = true ∨ c = '\n')
    (hrun : longestRun apostrophe before text ≤ 2) (hrest : StopsAt (· = apostrophe) rest) :
    readLongLiteral? (text ++ (List.replicate 3 apostrophe ++ rest)) = some (text, rest) := by
  induction text generalizing before with
  | nil =>
    have hclose : closeLong? apostrophe ([] ++ (List.replicate 3 apostrophe ++ rest))
        = some ([], rest) := closeLong?_append nofun (Nat.zero_le 2) hrest
    exact readLongLiteral?_of_closeLong? hclose
  | cons c text ih =>
    have hmarks : marksAt apostrophe (c :: text) ≤ 2 :=
      (Nat.le_add_left _ _).trans ((add_marksAt_le_longestRun before _).trans hrun)
    by_cases hall : ∀ d ∈ c :: text, d = apostrophe
    · rw [marksAt_of_forall hall] at hmarks
      exact readLongLiteral?_of_closeLong? (closeLong?_append hall hmarks hrest)
    · have hclose : closeLong? apostrophe
          (c :: text ++ (List.replicate 3 apostrophe ++ rest)) = none :=
        closeLong?_append_eq_none hall hmarks
      obtain ⟨hc, htext⟩ := List.forall_mem_cons.mp hplain
      obtain ⟨before, hrun⟩ := longestRun_of_cons hrun
      rw [List.cons_append] at hclose ⊢
      rw [readLongLiteral?, hclose]
      dsimp only
      rw [if_pos hc, ih htext hrun]
      rfl

/-! ## Every form -/

theorem isPlain_or_of_not_any (h : text.any needsEscape = false) :
    ∀ c ∈ text, isPlain c = true ∨ c = '\n' := by
  intro c hc
  have hneeds := Bool.eq_false_iff.mpr (List.any_eq_false.mp h c hc)
  by_cases hbreak : c = '\n'
  · exact .inr hbreak
  · exact .inl (by simpa [needsEscape, hbreak] using hneeds)

theorem styleOf_literal (h : styleOf text = .literal) :
    ∀ c ∈ text, isPlain c = true ∧ c ≠ apostrophe := by
  simp only [styleOf] at h
  split_ifs at h with hbasic hliteral
  obtain ⟨⟨hescapes, hbreak⟩, happ⟩ := by
    simpa only [Bool.and_eq_true, Bool.not_eq_true'] using hliteral
  intro c hc
  refine ⟨(isPlain_or_of_not_any hescapes c hc).resolve_right ?_, ?_⟩
  · rintro rfl
    simp [hc] at hbreak
  · rintro rfl
    simp [hc] at happ

theorem styleOf_longLiteral (h : styleOf text = .longLiteral) :
    (∀ c ∈ text, isPlain c = true ∨ c = '\n') ∧ longestRun apostrophe 0 text ≤ 2 := by
  simp only [styleOf] at h
  split_ifs at h with hbasic hliteral hlong hlongLiteral
  obtain ⟨hescapes, hrun⟩ := by
    simpa only [Bool.and_eq_true, Bool.not_eq_true', decide_eq_true_eq] using hlongLiteral
  exact ⟨isPlain_or_of_not_any hescapes, hrun⟩

theorem newline?_cons (h : isPlain c = true) : newline? (c :: rest) = none := by
  unfold newline?
  split
  · next hc =>
    obtain rfl := (List.cons.inj hc).1
    cases h
  · next hc =>
    obtain rfl := (List.cons.inj hc).1
    cases h
  · rfl

/-- The line break that is written in front does not count, and no other stands there. -/
theorem dropNewline_leadingBreak (h : '\n' ∉ text → newline? rest = none) :
    dropNewline (leadingBreak text ++ rest) = rest := by
  rw [leadingBreak]
  split_ifs with hbreak
  · rfl
  · have hnone := h (by simpa using hbreak)
    rw [List.nil_append, dropNewline, hnone]
    rfl

/-- Where no three marks stand, a string is on one line. -/
theorem readText?_eq_readLine? (hquote : marksAt quote text ≤ 2)
    (happ : marksAt apostrophe text ≤ 2) : readText? text = readLine? text := by
  rw [readText?, isPrefixOf?_replicate, isPrefixOf?_replicate,
    if_neg (Nat.not_le.mpr (Nat.lt_succ_of_le hquote)),
    if_neg (Nat.not_le.mpr (Nat.lt_succ_of_le happ))]

theorem stopsAt_escapeText (text : List Char) :
    StopsAt (· = quote) (escapeText false 0 0 text) := by
  cases text with
  | nil => exact stopsAt_nil
  | cons c text =>
    rcases escapeText_cons false 0 0 c text with
      ⟨-, hrun, -⟩ | ⟨hescape, htext⟩ | ⟨hquote, -, -, htext⟩
    · exact absurd hrun (Nat.not_lt_zero 0)
    · obtain ⟨name, hname, -, -⟩ := escape?_escapeChars hescape
      rw [htext, hname]
      exact stopsAt_cons (by decide)
    · rw [htext]
      exact stopsAt_cons (decide_eq_false hquote)

theorem readText?_basic (text : List Char) (hrest : StopsAt (· = quote) rest) :
    readText? (quote :: escapeText false 0 0 text ++ [quote] ++ rest)
      = some (String.ofList text, rest) := by
  have hmarks : marksAt quote (quote :: (escapeText false 0 0 text ++ quote :: rest)) ≤ 2 := by
    rw [marksAt_cons_self]
    exact Nat.succ_le_succ (marksAt_append_cons_le (stopsAt_escapeText text) hrest)
  have hread : readLine? (quote :: (escapeText false 0 0 text ++ quote :: rest))
      = some (String.ofList text, rest) := by
    rw [readLine?, if_pos rfl, readBasic?_escapeText]
    rfl
  have happ : marksAt apostrophe (quote :: (escapeText false 0 0 text ++ quote :: rest)) ≤ 2 := by
    simp [marksAt_cons_of_ne (show quote ≠ apostrophe by decide)]
  rw [List.append_assoc, List.cons_append, List.singleton_append,
    readText?_eq_readLine? hmarks happ, hread]

theorem readText?_literal (h : ∀ c ∈ text, isPlain c = true ∧ c ≠ apostrophe)
    (hrest : StopsAt (· = apostrophe) rest) :
    readText? (apostrophe :: text ++ [apostrophe] ++ rest) = some (String.ofList text, rest) := by
  have hstops : StopsAt (· = apostrophe) text := fun c hc ↦
    decide_eq_false (h c (List.mem_of_head? hc)).2
  have hmarks : marksAt apostrophe (apostrophe :: (text ++ apostrophe :: rest)) ≤ 2 := by
    rw [marksAt_cons_self]
    exact Nat.succ_le_succ (marksAt_append_cons_le hstops hrest)
  have hread : readLine? (apostrophe :: (text ++ apostrophe :: rest))
      = some (String.ofList text, rest) := by
    rw [readLine?, if_neg (by decide), if_pos rfl, readLiteral?_append h]
    rfl
  have hquote : marksAt quote (apostrophe :: (text ++ apostrophe :: rest)) ≤ 2 := by
    simp [marksAt_cons_of_ne (show apostrophe ≠ quote by decide)]
  rw [List.append_assoc, List.cons_append, List.singleton_append,
    readText?_eq_readLine? hquote hmarks, hread]

theorem newline?_escapeText_append (h : '\n' ∉ text) :
    newline? (escapeText true 2 0 text ++ (List.replicate 3 quote ++ rest)) = none := by
  cases text with
  | nil => rfl
  | cons c text =>
    rcases escapeText_cons true 2 0 c text with
      ⟨rfl, -, htext⟩ | ⟨hescape, htext⟩ | ⟨-, -, hc, htext⟩
    · rw [htext, List.cons_append]
      exact newline?_cons (by decide)
    · obtain ⟨name, hname, -, -⟩ := escape?_escapeChars hescape
      rw [htext, hname, List.cons_append, List.cons_append]
      exact newline?_cons (by decide)
    · have hplain : isPlain c = true :=
        hc.resolve_right fun hbreak ↦ h (hbreak.1 ▸ List.mem_cons_self)
      rw [htext, List.cons_append]
      exact newline?_cons hplain

theorem readText?_longBasic (text : List Char) (hrest : StopsAt (· = quote) rest) :
    readText? (List.replicate 3 quote ++ leadingBreak text ++ escapeText true 2 0 text
      ++ List.replicate 3 quote ++ rest) = some (String.ofList text, rest) := by
  set inside := escapeText true 2 0 text ++ (List.replicate 3 quote ++ rest) with hinside
  have hbreak : '\n' ∉ text → newline? inside = none := newline?_escapeText_append
  have hopen : (List.replicate 3 quote).isPrefixOf?
      (List.replicate 3 quote ++ (leadingBreak text ++ inside))
        = some (leadingBreak text ++ inside) := rfl
  rw [List.append_assoc, List.append_assoc, List.append_assoc, ← hinside, readText?, hopen]
  dsimp only
  rw [dropNewline_leadingBreak hbreak, readLongBasic?_escapeText (Nat.zero_le 2) text hrest]
  rfl

theorem readText?_longLiteral (hplain : ∀ c ∈ text, isPlain c = true ∨ c = '\n')
    (hrun : longestRun apostrophe 0 text ≤ 2) (hrest : StopsAt (· = apostrophe) rest) :
    readText? (List.replicate 3 apostrophe ++ leadingBreak text ++ text
      ++ List.replicate 3 apostrophe ++ rest) = some (String.ofList text, rest) := by
  set inside := text ++ (List.replicate 3 apostrophe ++ rest) with hinside
  have hbreak : '\n' ∉ text → newline? inside = none := by
    intro hbreak
    cases text with
    | nil => rfl
    | cons c text =>
      have hc : isPlain c = true := (hplain c List.mem_cons_self).resolve_right fun h ↦
        hbreak (h ▸ List.mem_cons_self)
      rw [hinside, List.cons_append]
      exact newline?_cons hc
  have hother : (List.replicate 3 quote).isPrefixOf?
      (List.replicate 3 apostrophe ++ (leadingBreak text ++ inside)) = none :=
    isPrefixOf?_cons_cons.trans (if_neg (by decide))
  have hopen : (List.replicate 3 apostrophe).isPrefixOf?
      (List.replicate 3 apostrophe ++ (leadingBreak text ++ inside))
        = some (leadingBreak text ++ inside) := rfl
  rw [List.append_assoc, List.append_assoc, List.append_assoc, ← hinside, readText?, hother, hopen]
  dsimp only
  rw [dropNewline_leadingBreak hbreak, readLongLiteral?_append hplain hrun hrest]
  rfl

/-- **Strings.** Reading undoes writing, in whichever form, where no mark stands behind. -/
theorem readText?_writeText (text : List Char) (hquote : StopsAt (· = quote) rest)
    (happ : StopsAt (· = apostrophe) rest) :
    readText? (writeText text ++ rest) = some (String.ofList text, rest) := by
  rw [writeText]
  split
  case h_1 => exact readText?_basic text hquote
  case h_2 hstyle => exact readText?_literal (styleOf_literal hstyle) happ
  case h_3 => exact readText?_longBasic text hquote
  case h_4 hstyle =>
    obtain ⟨hplain, hrun⟩ := styleOf_longLiteral hstyle
    exact readText?_longLiteral hplain hrun happ

end DualSeal.Toml
