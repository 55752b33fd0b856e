import DualSeal.Encoding.Der
import DualSeal.Proofs.Outcome
import Mathlib.Algebra.Ring.Nat

/-!
# Elements are read back

What is written as elements is read as the same elements, as long as no contents take 2^32 bytes:
lengths have a shortest spelling, so the reader's test of it passes, and elements that follow each
other are told apart by their lengths. As the reader refuses every other spelling, what is read as
elements is also what these are written as (`eq_of_readAll?`).
-/

namespace DualSeal

/-! ## Numbers -/

namespace Bytes

theorem toNat_concat (bytes : Bytes) (b : UInt8) :
    toNat (bytes ++ [b]) = toNat bytes * 256 + b.toNat := by
  rw [toNat, List.foldl_append, ← toNat]
  rfl

/-- What is written in a number of bytes keeps that many digits in base 256. -/
theorem toNat_ofNat (width n : Nat) : toNat (ofNat width n) = n % 256 ^ width := by
  induction width generalizing n with
  | zero => rw [Nat.pow_zero, Nat.mod_one]; rfl
  | succ width ih =>
    have hmod : n % 256 ^ (width + 1) = n % 256 + 256 * (n / 256 % 256 ^ width) := by
      rw [Nat.pow_succ', Nat.mod_mul]
    rw [ofNat, toNat_concat, ih, UInt8.toNat_ofNat', hmod]
    omega

theorem toNat_ofNat_of_lt {width n : Nat} (h : n < 256 ^ width) : toNat (ofNat width n) = n := by
  rw [toNat_ofNat, Nat.mod_eq_of_lt h]

end Bytes

namespace Der

/-! ## Lengths -/

/-- One more than the greatest length that is written. -/
def lengthLimit : Nat := 256 ^ 4

/-- A length of at least 0x80 has a byte in front that counts its bytes. -/
theorem exists_encodeLength_eq {length : Nat} (hlong : 0x80 ≤ length) (h : length < lengthLimit) :
    ∃ width, (1 ≤ width ∧ width ≤ 4) ∧ length < 256 ^ width ∧
      encodeLength length = UInt8.ofNat (0x80 + width) :: Bytes.ofNat width length := by
  rw [encodeLength, if_neg (Nat.not_lt_of_le hlong)]
  by_cases hone : length < 0x100
  · exact ⟨1, by decide, hone, if_pos hone⟩
  rw [if_neg hone]
  by_cases htwo : length < 0x10000
  · exact ⟨2, by decide, htwo, if_pos htwo⟩
  rw [if_neg htwo]
  by_cases hthree : length < 0x1000000
  · exact ⟨3, by decide, hthree, if_pos hthree⟩
  · exact ⟨4, by decide, h, if_neg hthree⟩

/-- **Lengths are read back.** -/
theorem readLength?_encodeLength {length : Nat} (h : length < lengthLimit) (rest : Bytes) :
    readLength? (encodeLength length ++ rest) = some (length, rest) := by
  by_cases hlong : 0x80 ≤ length
  · obtain ⟨width, hwidth, hlt, heq⟩ := exists_encodeLength_eq hlong h
    have hdigits := Bytes.length_ofNat width length
    have hfirst : (UInt8.ofNat (0x80 + width)).toNat = 0x80 + width :=
      UInt8.toNat_ofNat_of_lt' (Nat.lt_of_le_of_lt (Nat.add_le_add_left hwidth.2 _) (by decide))
    have hcount : 0x80 + width - 0x80 = width := by
      omega
    rw [heq, List.cons_append, readLength?]
    dsimp only
    rw [hfirst, if_neg (by omega), hcount, List.take_left' hdigits, List.drop_left' hdigits,
      if_pos ⟨hwidth.1, hwidth.2, by rw [List.length_append]; omega⟩,
      Bytes.toNat_ofNat_of_lt hlt, if_pos heq]
  · have hshort : length < 0x80 := Nat.lt_of_not_le hlong
    have hfirst : (UInt8.ofNat length).toNat = length :=
      UInt8.toNat_ofNat_of_lt' (Nat.lt_trans hshort (by decide))
    rw [encodeLength, if_pos hshort, List.singleton_append, readLength?]
    dsimp only
    rw [hfirst, if_pos hshort]

/-! ## Elements -/

/-- An element that is written: its tag can begin one, and its contents are not too long. -/
structure Element.IsPlain (element : Element) : Prop where
  isTag : isTag element.tag = true
  length_lt : element.content.length < lengthLimit

/-- The element in writing. -/
def Element.written (element : Element) : Bytes := encode element.tag element.content

theorem read?_written {element : Element} (h : element.IsPlain) (rest : Bytes) :
    read? (element.written ++ rest) = some (element, rest) := by
  have hread := readLength?_encodeLength h.length_lt (element.content ++ rest)
  rw [Element.written, encode, List.cons_append, read?, if_pos h.isTag, List.append_assoc, hread]
  have hlength : element.content.length ≤ (element.content ++ rest).length := by
    rw [List.length_append]
    exact Nat.le_add_right _ _
  change (if _ then some _ else none) = _
  rw [if_pos hlength, List.take_left, List.drop_left]

theorem readAllWithin?_written {elements : List Element} {fuel : Nat}
    (h : ∀ element ∈ elements, element.IsPlain) (hfuel : elements.length ≤ fuel) :
    readAllWithin? fuel (elements.flatMap Element.written) = some elements := by
  induction elements generalizing fuel with
  | nil => rw [List.flatMap_nil, readAllWithin?]
  | cons element elements ih =>
    obtain ⟨helement, helements⟩ := List.forall_mem_cons.mp h
    cases fuel with
    | zero => exact absurd hfuel (Nat.not_succ_le_zero _)
    | succ fuel =>
      have hread := read?_written helement (elements.flatMap Element.written)
      have hrest := ih helements (Nat.le_of_succ_le_succ hfuel)
      rw [List.flatMap_cons]
      rw [Element.written, encode, List.cons_append] at hread ⊢
      rw [readAllWithin?, hread]
      change (do
        let read ← readAllWithin? fuel (elements.flatMap Element.written)
        return element :: read) = _
      rw [hrest]
      rfl

theorem length_le_length_flatMap_written (elements : List Element) :
    elements.length ≤ (elements.flatMap Element.written).length := by
  induction elements with
  | nil => exact Nat.le_refl 0
  | cons element elements ih =>
    rw [List.flatMap_cons, List.length_append, Element.written, encode, List.length_cons,
      List.length_cons]
    omega

/-- **Elements are read back.** -/
theorem readAll?_written {elements : List Element} (h : ∀ element ∈ elements, element.IsPlain) :
    readAll? (elements.flatMap Element.written) = some elements :=
  readAllWithin?_written h (length_le_length_flatMap_written elements)

theorem unwrap?_encode {tag : UInt8} {content : Bytes} (htag : isTag tag = true)
    (hlength : content.length < lengthLimit) : unwrap? tag (encode tag content) = some content := by
  have hread : readAll? ([Element.mk tag content].flatMap Element.written)
      = some [⟨tag, content⟩] :=
    readAll?_written (List.forall_mem_singleton.mpr ⟨htag, hlength⟩)
  rw [List.flatMap_singleton, Element.written] at hread
  rw [unwrap?, hread]
  exact if_pos rfl

/-- The elements in writing, in a sequence. -/
def writtenSequence (elements : List Element) : Bytes :=
  encode sequenceTag (elements.flatMap Element.written)

theorem sequence?_writtenSequence {elements : List Element}
    (h : ∀ element ∈ elements, element.IsPlain)
    (hlength : (elements.flatMap Element.written).length < lengthLimit) :
    sequence? (writtenSequence elements) = some elements := by
  have hread := readAll?_written h
  rw [sequence?, writtenSequence, unwrap?_encode (by decide) hlength]
  exact hread

/-! ## Nothing else is read -/

theorem eq_of_readLength? {bytes rest : Bytes} {length : Nat}
    (h : readLength? bytes = some (length, rest)) : bytes = encodeLength length ++ rest := by
  cases bytes with
  | nil => cases h
  | cons first bytes =>
    rw [readLength?] at h
    dsimp only at h
    split at h
    · rename_i hshort
      obtain ⟨rfl, rfl⟩ := Prod.mk.inj (Option.some.inj h)
      rw [encodeLength, if_pos hshort, UInt8.ofNat_toNat, List.singleton_append]
    split at h
    · split at h
      · -- A longer spelling is refused by writing the length again.
        rename_i hspelling
        obtain ⟨rfl, rfl⟩ := Prod.mk.inj (Option.some.inj h)
        rw [hspelling, List.cons_append, List.take_append_drop]
      · cases h
    · cases h

theorem eq_of_read? {bytes rest : Bytes} {element : Element}
    (h : read? bytes = some (element, rest)) : bytes = element.written ++ rest := by
  cases bytes with
  | nil => cases h
  | cons tag bytes =>
    rw [read?] at h
    split at h
    · obtain ⟨⟨length, behind⟩, hlength, h⟩ := Option.bind_eq_some_iff.mp h
      dsimp only at h
      split at h
      · rename_i hle
        obtain ⟨rfl, rfl⟩ := Prod.mk.inj (Option.some.inj h)
        rw [Element.written, encode, List.length_take_of_le hle, List.cons_append,
          List.append_assoc, List.take_append_drop, ← eq_of_readLength? hlength]
      · cases h
    · cases h

theorem eq_of_readAllWithin? {fuel : Nat} {bytes : Bytes} {elements : List Element}
    (h : readAllWithin? fuel bytes = some elements) :
    bytes = elements.flatMap Element.written := by
  induction fuel generalizing bytes elements with
  | zero =>
    cases bytes with
    | nil => rw [← Option.some.inj h, List.flatMap_nil]
    | cons b bytes => cases h
  | succ fuel ih =>
    cases bytes with
    | nil => rw [← Option.some.inj h, List.flatMap_nil]
    | cons b bytes =>
      rw [readAllWithin?] at h
      obtain ⟨⟨element, rest⟩, helement, h⟩ := Option.bind_eq_some_iff.mp h
      obtain ⟨others, hothers, h⟩ := Option.bind_eq_some_iff.mp h
      rw [← Option.some.inj h, List.flatMap_cons, ← ih hothers, ← eq_of_read? helement]

/-- **Elements have one spelling.** What is read as elements is what they are written as. -/
theorem eq_of_readAll? {bytes : Bytes} {elements : List Element}
    (h : readAll? bytes = some elements) : bytes = elements.flatMap Element.written :=
  eq_of_readAllWithin? h

theorem eq_of_unwrap? {tag : UInt8} {bytes content : Bytes}
    (h : unwrap? tag bytes = some content) : bytes = encode tag content := by
  rw [unwrap?] at h
  split at h
  · rename_i element hread
    split at h
    · rename_i htag
      rw [eq_of_readAll? hread, List.flatMap_singleton, Element.written, htag,
        Option.some.inj h]
    · cases h
  · cases h

theorem eq_of_sequence? {bytes : Bytes} {elements : List Element}
    (h : sequence? bytes = some elements) : bytes = writtenSequence elements := by
  obtain ⟨content, hcontent, hread⟩ := Option.bind_eq_some_iff.mp h
  rw [eq_of_unwrap? hcontent, writtenSequence, eq_of_readAll? hread]

theorem eq_of_wholeBits? {content bytes : Bytes} (h : wholeBits? content = some bytes) :
    content = 0 :: bytes := by
  rw [wholeBits?.eq_def] at h
  split at h
  · rw [Option.some.inj h]
  · cases h

/-! ## How long elements are -/

theorem length_encode_le (tag : UInt8) (content : Bytes) :
    (encode tag content).length ≤ content.length + 6 := by
  have hlength : (encodeLength content.length).length ≤ 5 := by
    rw [encodeLength]
    split_ifs
    all_goals simp
  rw [encode, List.length_cons, List.length_append]
  omega

theorem length_flatMap_written_le (elements : List Element) :
    (elements.flatMap Element.written).length
      ≤ (elements.map fun element ↦ element.content.length + 6).sum := by
  induction elements with
  | nil => exact Nat.le_refl 0
  | cons element elements ih =>
    rw [List.flatMap_cons, List.length_append, List.map_cons, List.sum_cons]
    exact Nat.add_le_add (length_encode_le element.tag element.content) ih

end Der

end DualSeal
