import DualSeal.Encoding.Pem
import DualSeal.Proofs.Chunks
import DualSeal.Proofs.Encoding.Base64
import Mathlib.Algebra.BigOperators.Group.List.Defs

/-!
# Reading a block undoes writing it

The block of a body that is not empty is read back as its label and that body (`decode_encode`),
for every label that the reader knows. An empty body is the exception: its block has no line of
base64.

The lines are the delicate part. A body whose base64 fills its last line leaves a full line in
front of the end of line that belongs to the closing boundary, and the reader must take it for the
last one (`linesWithin?_joinLines`).
-/

namespace DualSeal.Pem

/-! ## Bytes of a spelling -/

private theorem spelling_facts :
    ∀ b : UInt8, Base64.IsSpelling b → b ≠ lf ∧ b ≠ cr ∧ b.toNat < 0x80 := by
  decide +kernel

theorem ne_lf_of_isSpelling {b : UInt8} (h : Base64.IsSpelling b) : b ≠ lf := (spelling_facts b h).1

theorem ne_cr_of_isSpelling {b : UInt8} (h : Base64.IsSpelling b) : b ≠ cr :=
  (spelling_facts b h).2.1

theorem ascii_of_isSpelling {b : UInt8} (h : Base64.IsSpelling b) : b.toNat < 0x80 :=
  (spelling_facts b h).2.2

/-! ## Lines -/

theorem four_le_length_of_mem_chunksWithin {fuel : Nat} {symbols line : Bytes}
    (hquads : symbols.length % 4 = 0) (hline : line ∈ chunksWithin lineWidth fuel symbols) :
    4 ≤ line.length := by
  induction fuel generalizing symbols with
  | zero => cases hline
  | succ fuel ih =>
    cases symbols with
    | nil => cases hline
    | cons a symbols =>
      rw [chunksWithin] at hline
      have hpos : 0 < (a :: symbols).length := Nat.succ_pos _
      rcases List.mem_cons.mp hline with rfl | hline
      · rw [List.length_take, lineWidth]
        omega
      · refine ih ?_ hline
        rw [List.length_drop, lineWidth]
        omega

theorem joinLines_cons {line : Bytes} {lines : List Bytes} (h : lines ≠ []) :
    joinLines (line :: lines) = line ++ lf :: joinLines lines := by
  obtain ⟨other, lines, rfl⟩ := List.exists_cons_of_ne_nil h
  rfl

theorem mem_joinLines {lines : List Bytes} {b : UInt8} (h : b ∈ joinLines lines) :
    b = lf ∨ ∃ line ∈ lines, b ∈ line := by
  induction lines using joinLines.induct with
  | case1 => cases h
  | case2 line => exact .inr ⟨line, List.mem_cons_self, h⟩
  | case3 line lines hne ih =>
    rw [joinLines_cons hne] at h
    rcases List.mem_append.mp h with h | h
    · exact .inr ⟨line, List.mem_cons_self, h⟩
    · rcases List.mem_cons.mp h with h | h
      · exact .inl h
      · rcases ih h with h | ⟨other, hother, h⟩
        · exact .inl h
        · exact .inr ⟨other, List.mem_cons_of_mem _ hother, h⟩

/-! ## Ends of lines -/

theorem dropTrailingEol?_append_lf {text : Bytes} (h : text.getLast? ≠ some cr) :
    dropTrailingEol? (text ++ [lf]) = some text := by
  rw [dropTrailingEol?, List.reverse_append, List.reverse_singleton, List.singleton_append]
  cases hreverse : text.reverse with
  | nil =>
    rw [List.reverse_eq_nil_iff] at hreverse
    rw [hreverse]
    rfl
  | cons c rest =>
    have hc : c ≠ cr := by
      rintro rfl
      rw [List.getLast?_eq_head?_reverse, hreverse] at h
      exact h rfl
    dsimp only
    rw [if_pos rfl, if_neg hc, ← hreverse, List.reverse_reverse]

theorem dropTrailingEol?_eq_none {text : Bytes} (h : ∀ b ∈ text, b ≠ lf ∧ b ≠ cr) :
    dropTrailingEol? text = none := by
  rw [dropTrailingEol?]
  cases hreverse : text.reverse with
  | nil => rfl
  | cons b rest =>
    have hb := h b (List.mem_reverse.mp (hreverse ▸ List.mem_cons_self))
    dsimp only
    rw [if_neg hb.1, if_neg hb.2]

theorem dropLeadingEol?_lf (rest : Bytes) : dropLeadingEol? (lf :: rest) = some rest := rfl

theorem linesWithin?_last {line : Bytes} (fuel : Nat) (hne : line ≠ [])
    (hshort : line.length ≤ lineWidth) (heol : ∀ b ∈ line, b ≠ lf ∧ b ≠ cr) :
    linesWithin? (fuel + 1) line = some ⟨[line], false⟩ := by
  obtain ⟨b, tail, rfl⟩ := List.exists_cons_of_ne_nil hne
  rw [linesWithin?]
  dsimp only
  rw [if_pos hshort, dropTrailingEol?_eq_none heol, Option.getD_none,
    if_neg (List.cons_ne_nil b tail)]

theorem linesWithin?_full {line rest : Bytes} {lines : List Bytes} {fuel : Nat}
    (hfull : line.length = lineWidth) (hrest : linesWithin? fuel rest = some ⟨lines, false⟩) :
    linesWithin? (fuel + 1) (line ++ lf :: rest) = some ⟨line :: lines, false⟩ := by
  have hne : line ≠ [] := by
    rintro rfl
    exact absurd hfull (by decide)
  obtain ⟨b, tail, hcons⟩ := List.exists_cons_of_ne_nil hne
  rw [hcons, List.cons_append, linesWithin?]
  dsimp only
  rw [← List.cons_append, ← hcons, if_neg (by simp [hfull]), List.drop_left' hfull,
    dropLeadingEol?_lf]
  dsimp only
  rw [hrest, List.take_left' hfull]
  rfl

/-- The lines that a spelling is written in are read back, and none is left over. -/
theorem linesWithin?_joinLines {count fuel : Nat} {symbols : Bytes}
    (hsymbols : ∀ b ∈ symbols, b ≠ lf ∧ b ≠ cr) (hcount : symbols.length ≤ count)
    (hfuel : (joinLines (chunksWithin lineWidth count symbols)).length ≤ fuel) :
    linesWithin? fuel (joinLines (chunksWithin lineWidth count symbols))
      = some ⟨chunksWithin lineWidth count symbols, false⟩ := by
  -- By induction on the bound for the number of lines; what is left to read bounds the fuel.
  induction count generalizing symbols fuel with
  | zero => cases fuel <;> rfl
  | succ count ih =>
    cases symbols with
    | nil => cases fuel <;> rfl
    | cons a symbols =>
      rw [chunksWithin] at hfuel ⊢
      set line := (a :: symbols).take lineWidth with hline
      set rest := (a :: symbols).drop lineWidth with hrest
      have hne : line ≠ [] := by simp [hline, lineWidth]
      have hpos : 0 < line.length := List.length_pos_iff.mpr hne
      by_cases hnil : rest = []
      · have hshort : line.length ≤ lineWidth := List.length_take_le _ _
        rw [hnil, chunksWithin_nil, joinLines] at hfuel ⊢
        obtain ⟨k, rfl⟩ : ∃ k, fuel = k + 1 := ⟨fuel - 1, by omega⟩
        exact linesWithin?_last k hne hshort fun b hb ↦ hsymbols b (List.mem_of_mem_take hb)
      · have hfull : line.length = lineWidth := by
          rw [hline, List.length_take, Nat.min_eq_left]
          by_contra hlt
          exact hnil (List.drop_eq_nil_of_le (by omega))
        have hrestLength : rest.length ≤ count := by
          rw [hrest, List.length_drop, lineWidth]
          rw [List.length_cons] at hcount ⊢
          omega
        have hchunks : chunksWithin lineWidth count rest ≠ [] := by
          intro h
          have hflat := flatten_chunksWithin (show 0 < lineWidth by decide) hrestLength
          rw [h] at hflat
          exact hnil hflat.symm
        rw [joinLines_cons hchunks, List.length_append, List.length_cons] at hfuel
        rw [joinLines_cons hchunks]
        obtain ⟨k, rfl⟩ : ∃ k, fuel = k + 1 := ⟨fuel - 1, by omega⟩
        refine linesWithin?_full hfull (ih ?_ hrestLength (by omega))
        exact fun b hb ↦ hsymbols b (List.mem_of_mem_drop hb)

/-! ## The body -/

theorem decodeBody_joinLines {body : Bytes} (hbody : body ≠ []) :
    decodeBody (joinLines (chunks lineWidth (Base64.encode body))) = .ok body := by
  set symbols := Base64.encode body with hsymbols
  set lines := chunks lineWidth symbols with hlines
  have heol : ∀ b ∈ symbols, b ≠ lf ∧ b ≠ cr := fun b hb ↦
    ⟨ne_lf_of_isSpelling (Base64.isSpelling_of_mem_encode hb),
      ne_cr_of_isSpelling (Base64.isSpelling_of_mem_encode hb)⟩
  have hflat : lines.flatten = symbols := flatten_chunksWithin (by decide) le_rfl
  have hquads : symbols.length % 4 = 0 := Base64.length_encode_mod_four body
  have hne : lines ≠ [] := by
    intro h
    rw [h] at hflat
    exact hbody (Base64.encode_eq_nil_iff.mp hflat.symm)
  have hlast : 4 ≤ (lines.getLast?.getD []).length := by
    rw [List.getLast?_eq_some_getLast hne, Option.getD_some]
    exact four_le_length_of_mem_chunksWithin hquads (List.getLast_mem hne)
  have hread : linesWithin? (joinLines lines).length (joinLines lines) = some ⟨lines, false⟩ :=
    linesWithin?_joinLines heol le_rfl le_rfl
  rw [decodeBody, hread]
  dsimp only
  rw [if_neg (by simp [hne]), hflat, if_pos hquads, if_neg (by omega), if_neg (by simp),
    hsymbols, Base64.decode_encode]

/-! ## Labels and boundaries -/

/-- A label that the reader knows: visible characters, single blanks between them, no dash. -/
def IsLabel (label : Bytes) : Prop := splitLabel? label true false = some (label, [])

instance (label : Bytes) : Decidable (IsLabel label) := by
  unfold IsLabel
  infer_instance

theorem splitLabel?_append_dash {label rest : Bytes} {first blank : Bool}
    (h : splitLabel? label first blank = some (label, [])) :
    splitLabel? (label ++ 0x2D :: rest) first blank = some (label, 0x2D :: rest) := by
  induction label generalizing first blank with
  | nil => rfl
  | cons b label ih =>
    rw [splitLabel?] at h
    rw [List.cons_append, splitLabel?]
    split at h
    · rename_i hvisible
      obtain ⟨⟨l, r⟩, hl, heq⟩ := Option.map_eq_some_iff.mp h
      cases heq
      rw [if_pos hvisible, ih hl]
      rfl
    · split at h
      · cases h
      · rename_i hvisible hdash
        split at h
        · rename_i hblank
          obtain ⟨⟨l, r⟩, hl, heq⟩ := Option.map_eq_some_iff.mp h
          cases heq
          rw [if_neg hvisible, if_neg hdash, if_pos hblank, ih hl]
          rfl
        · cases h

theorem findBlock_opening (rest : Bytes) : findBlock (opening ++ rest) = .ok rest := by
  have hopening : opening.isPrefixOf (opening ++ rest) = true :=
    List.isPrefixOf_iff_prefix.mpr (List.prefix_append _ _)
  rw [findBlock, if_pos hopening]
  exact congrArg Except.ok List.drop_left

theorem splitBlock_append {label inner : Bytes} (hlabel : IsLabel label) (hinner : cr ∉ inner) :
    splitBlock (label ++ dashes ++ [lf] ++ inner ++ lf :: (closing ++ label ++ dashes ++ [lf]))
      = .ok (label, inner) := by
  have hdashes : (inner ++ [lf] ++ closing ++ label ++ dashes).getLast? ≠ some cr := by
    rw [List.getLast?_append_of_ne_nil _ (by decide)]
    decide
  have hlabelSplit : splitLabel? (label ++ (dashes ++ lf :: (inner ++ [lf] ++ closing ++ label
      ++ dashes ++ [lf]))) true false = some (label, dashes ++ lf :: (inner ++ [lf] ++ closing
      ++ label ++ dashes ++ [lf])) := splitLabel?_append_dash hlabel
  have hshape : label ++ dashes ++ [lf] ++ inner ++ lf :: (closing ++ label ++ dashes ++ [lf])
      = label ++ (dashes ++ lf :: (inner ++ [lf] ++ closing ++ label ++ dashes ++ [lf])) := by
    simp only [List.append_assoc, List.cons_append, List.nil_append]
  rw [hshape, splitBlock, hlabelSplit]
  dsimp only
  rw [List.isPrefixOf?_eq_some_iff_append_eq.mpr rfl]
  dsimp only
  rw [dropLeadingEol?_lf]
  dsimp only
  rw [dropTrailingEol?_append_lf hdashes, Option.getD_some,
    List.isSuffixOf?_eq_some_iff_append_eq.mpr rfl]
  dsimp only
  rw [List.isSuffixOf?_eq_some_iff_append_eq.mpr rfl]
  dsimp only
  rw [List.isSuffixOf?_eq_some_iff_append_eq.mpr rfl]
  dsimp only
  rw [dropTrailingEol?_append_lf fun h ↦ hinner (List.mem_of_getLast? h)]
  rfl

/-! ## Blocks -/

theorem encode_eq_opening_append (label body : Bytes) :
    encode label body
      = opening ++ (label ++ dashes ++ [lf] ++ joinLines (chunks lineWidth (Base64.encode body))
          ++ lf :: (closing ++ label ++ dashes ++ [lf])) := by
  rw [encode]
  simp only [List.append_assoc]

theorem cr_notMem_joinLines_encode (body : Bytes) :
    cr ∉ joinLines (chunks lineWidth (Base64.encode body)) := by
  intro h
  rcases mem_joinLines h with h | ⟨line, hline, h⟩
  · cases h
  · have hmem : cr ∈ Base64.encode body := mem_of_mem_chunksWithin hline h
    exact ne_cr_of_isSpelling (Base64.isSpelling_of_mem_encode hmem) rfl

/-- **Blocks.** The block of a body that is not empty is read back. -/
theorem decode_encode {label body : Bytes} (hlabel : IsLabel label) (hbody : body ≠ []) :
    decode (encode label body) = .ok (label, body) := by
  rw [decode, encode_eq_opening_append, findBlock_opening, ok_bind,
    splitBlock_append hlabel (cr_notMem_joinLines_encode body), ok_bind]
  dsimp only
  rw [decodeBody_joinLines hbody]
  rfl

theorem ascii_of_mem_encode {label body : Bytes} {b : UInt8} (hlabel : ∀ b ∈ label, b.toNat < 0x80)
    (h : b ∈ encode label body) : b.toNat < 0x80 := by
  have hopening : ∀ b ∈ opening, b.toNat < 0x80 := by decide +kernel
  have hclosing : ∀ b ∈ closing, b.toNat < 0x80 := by decide +kernel
  have hdashes : ∀ b ∈ dashes, b.toNat < 0x80 := by decide +kernel
  have hlf : lf.toNat < 0x80 := by decide
  simp only [encode, List.mem_append, List.mem_cons, List.not_mem_nil, or_false] at h
  rcases h with ((((h | h) | h) | rfl) | h) | rfl | ((h | h) | h) | rfl
  · exact hopening b h
  · exact hlabel b h
  · exact hdashes b h
  · exact hlf
  · rcases mem_joinLines h with rfl | ⟨line, hline, h⟩
    · exact hlf
    · exact ascii_of_isSpelling (Base64.isSpelling_of_mem_encode (mem_of_mem_chunksWithin hline h))
  · exact hlf
  · exact hclosing b h
  · exact hlabel b h
  · exact hdashes b h
  · exact hlf

end DualSeal.Pem
