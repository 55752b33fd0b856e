import DualSeal.Proofs.Secret.Canonicity

/-!
# The grammar of the simple form

The simple form is a language of its own: segments `id(value)` joined by dashes, with fields for
ids and values and no id twice. The reader accepts that language and nothing else, and what it makes
of a text outside of it is settled by the first piece between dashes that is no segment or repeats
an id (`decodeSimple_grammar`).

A fault of a piece is stated here on the piece alone, by the first rule that it breaks, and a fault
of a text on its pieces alone. That the reader stops at the least faulty piece then needs no
reasoning about its state: a fault at a piece is unique (`FaultAt.unique`), there is none in front
of the place where reading stops (`not_faultAt_of_segments`), and there is one at that place
(`exists_faultAt_of_readSegments`).
-/

namespace DualSeal

namespace Shard

/-! ## Faults of a piece -/

/-- The first rule of a segment that a piece breaks. There is one parenthesis of each kind, the
closing one comes last, and neither what stands in front of the opening one nor what stands between
them is empty. -/
def Breaks (piece : List Char) : SegmentFault → Prop
  | .openings => piece.count '(' ≠ 1
  | .closings => piece.count '(' = 1 ∧ piece.count ')' ≠ 1
  | .unclosed => piece.count '(' = 1 ∧ piece.count ')' = 1 ∧ piece.getLast? ≠ some ')'
  | .emptyKeyId => ∃ value, '(' ∉ value ∧ ')' ∉ value ∧ piece = '(' :: value ++ [')']
  | .emptyValue => ∃ id, id ≠ [] ∧ '(' ∉ id ∧ ')' ∉ id ∧ piece = id ++ ['(', ')']

theorem ofSegment_of_breaks {piece : List Char} {fault : SegmentFault} (h : Breaks piece fault) :
    ofSegment piece = .error fault := by
  cases fault with
  | openings =>
    rw [ofSegment]
    exact if_pos h
  | closings =>
    obtain ⟨hopenings, hclosings⟩ := h
    rw [ofSegment, if_neg (not_not.mpr hopenings), if_pos hclosings]
  | unclosed =>
    obtain ⟨hopenings, hclosings, hlast⟩ := h
    exact ofSegment_unclosed hopenings hclosings hlast
  | emptyKeyId =>
    obtain ⟨value, hopening, hclosing, rfl⟩ := h
    exact (ofSegment_enclosed (by simp) ⟨hopening, hclosing⟩).trans (if_pos rfl)
  | emptyValue =>
    obtain ⟨id, hne, hopening, hclosing, rfl⟩ := h
    have hread := ofSegment_enclosed ⟨hopening, hclosing⟩ (by simp : '(' ∉ [] ∧ ')' ∉ [])
    rw [if_neg hne, if_pos rfl] at hread
    exact hread

/-- A piece that breaks no rule is read. -/
theorem exists_breaks_or_ok (piece : List Char) :
    (∃ fault, Breaks piece fault) ∨ ∃ shard, ofSegment piece = .ok shard := by
  by_cases hopenings : piece.count '(' = 1
  swap
  · exact .inl ⟨.openings, hopenings⟩
  by_cases hclosings : piece.count ')' = 1
  swap
  · exact .inl ⟨.closings, hopenings, hclosings⟩
  by_cases hlast : piece.getLast? = some ')'
  swap
  · exact .inl ⟨.unclosed, hopenings, hclosings, hlast⟩
  obtain ⟨id, value, rfl, hid, hvalue⟩ := exists_enclosed hopenings hclosings hlast
  by_cases hidNil : id = []
  · exact .inl ⟨.emptyKeyId, value, hvalue.1, hvalue.2, by simp [hidNil]⟩
  by_cases hvalueNil : value = []
  · exact .inl ⟨.emptyValue, id, hidNil, hid.1, hid.2, by simp [hvalueNil]⟩
  refine .inr ⟨⟨⟨String.ofList id⟩, String.ofList value⟩, ?_⟩
  rw [ofSegment_enclosed hid hvalue, if_neg hidNil, if_neg hvalueNil]

/-- **Faults of a piece.** Reading a piece fails with the first rule that it breaks. -/
theorem ofSegment_eq_error_iff {piece : List Char} {fault : SegmentFault} :
    ofSegment piece = .error fault ↔ Breaks piece fault := by
  refine ⟨fun h ↦ ?_, ofSegment_of_breaks⟩
  rcases exists_breaks_or_ok piece with ⟨other, hother⟩ | ⟨shard, hshard⟩
  · have hfault := ofSegment_of_breaks hother
    rw [h] at hfault
    cases hfault
    exact hother
  · rw [h] at hshard
    cases hshard

theorem not_breaks_segment {shard : Shard} (h : shard.WellFormed) (fault : SegmentFault) :
    ¬ Breaks shard.segment fault := by
  intro hbreaks
  have hfault := ofSegment_of_breaks hbreaks
  rw [ofSegment_segment h] at hfault
  cases hfault

theorem segment_injective {a b : Shard} (ha : a.WellFormed) (hb : b.WellFormed)
    (h : a.segment = b.segment) : a = b := by
  have hread := ofSegment_segment ha
  rw [h, ofSegment_segment hb] at hread
  exact (Except.ok.inj hread).symm

theorem exists_breaks_iff {piece : List Char} (hdash : '-' ∉ piece) :
    (∃ fault, Breaks piece fault)
      ↔ ¬ ∃ shard : Shard, shard.WellFormed ∧ piece = shard.segment := by
  constructor
  · rintro ⟨fault, hbreaks⟩ ⟨shard, hshard, rfl⟩
    exact not_breaks_segment hshard fault hbreaks
  · intro hnone
    refine (exists_breaks_or_ok piece).resolve_right ?_
    rintro ⟨shard, hshard⟩
    exact hnone ⟨shard, (ofSegment_eq_ok_iff hdash).mp hshard⟩

end Shard

namespace Secret

/-! ## Faults of a text -/

/-- What stands between the dashes of a text. -/
def pieces (text : String) : List (List Char) := text.toList.splitOn '-'

/-- What is wrong with the piece that has a number: it is no segment, or it repeats the id of a
segment before it. -/
inductive FaultAt (pieces : List (List Char)) (index : Nat) : WireError → Prop
  | malformed {piece : List Char} {fault : SegmentFault} (hpiece : pieces[index]? = some piece)
      (hbreaks : Shard.Breaks piece fault) : FaultAt pieces index (.malformedSegment index fault)
  | repeated {shard other : Shard} {earlier : Nat} (hshard : shard.WellFormed)
      (hpiece : pieces[index]? = some shard.segment) (hearlier : earlier < index)
      (hother : other.WellFormed) (hsame : pieces[earlier]? = some other.segment)
      (hid : other.keyId = shard.keyId) : FaultAt pieces index (.duplicateKeyId index shard.keyId)

/-- The fault of the first piece that has one. -/
structure FirstFault (pieces : List (List Char)) (index : Nat) (error : WireError) : Prop where
  here : FaultAt pieces index error
  before : ∀ earlier < index, ∀ other, ¬ FaultAt pieces earlier other

section Faults

variable {pieces others : List (List Char)} {index : Nat} {error : WireError}

/-- A piece has one fault at most. -/
theorem FaultAt.unique {other : WireError} (h : FaultAt pieces index error)
    (hother : FaultAt pieces index other) : error = other := by
  cases h with
  | malformed hpiece hbreaks =>
    cases hother with
    | malformed hpiece' hbreaks' =>
      obtain rfl := Option.some.inj (hpiece.symm.trans hpiece')
      have hfault := Shard.ofSegment_of_breaks hbreaks
      rw [Shard.ofSegment_of_breaks hbreaks'] at hfault
      rw [Except.error.inj hfault]
    | repeated hshard hpiece' =>
      obtain rfl := Option.some.inj (hpiece.symm.trans hpiece')
      exact absurd hbreaks (Shard.not_breaks_segment hshard _)
  | repeated hshard hpiece =>
    cases hother with
    | malformed hpiece' hbreaks =>
      obtain rfl := Option.some.inj (hpiece.symm.trans hpiece')
      exact absurd hbreaks (Shard.not_breaks_segment hshard _)
    | repeated hshard' hpiece' =>
      have hsegment := Option.some.inj (hpiece.symm.trans hpiece')
      rw [Shard.segment_injective hshard hshard' hsegment]

theorem FaultAt.lt_length (h : FaultAt pieces index error) : index < pieces.length := by
  cases h with
  | malformed hpiece _ => exact (List.getElem?_eq_some_iff.mp hpiece).1
  | repeated _ hpiece => exact (List.getElem?_eq_some_iff.mp hpiece).1

theorem FaultAt.congr {bound : Nat} (hindex : index < bound)
    (hsame : others.take bound = pieces.take bound) (h : FaultAt pieces index error) :
    FaultAt others index error := by
  have hget : ∀ i < bound, others[i]? = pieces[i]? := by
    intro i hi
    rw [← List.getElem?_take_of_lt hi, hsame, List.getElem?_take_of_lt hi]
  cases h with
  | malformed hpiece hbreaks => exact .malformed ((hget _ hindex).trans hpiece) hbreaks
  | repeated hshard hpiece hearlier hother hearlierPiece hid =>
    exact .repeated hshard ((hget _ hindex).trans hpiece) hearlier hother
      ((hget _ (hearlier.trans hindex)).trans hearlierPiece) hid

theorem FirstFault.congr (hsame : others.take (index + 1) = pieces.take (index + 1))
    (h : FirstFault pieces index error) : FirstFault others index error where
  here := h.here.congr (Nat.lt_succ_self index) hsame
  before earlier hearlier other hother :=
    h.before earlier hearlier other (hother.congr (Nat.lt_succ_of_lt hearlier) hsame.symm)

theorem FirstFault.unique {index' : Nat} {error' : WireError} (h : FirstFault pieces index error)
    (h' : FirstFault pieces index' error') : error = error' := by
  have hindex : index = index' := by
    rcases Nat.lt_trichotomy index index' with hlt | heq | hgt
    · exact absurd h.here (h'.before index hlt error)
    · exact heq
    · exact absurd h'.here (h.before index' hgt error')
  subst hindex
  exact h.here.unique h'.here

/-! ## Where reading stops -/

theorem not_faultAt_of_segments {shards : List Shard} (rest : List (List Char))
    (hshards : ∀ shard ∈ shards, shard.WellFormed) (hnodup : (shards.map Shard.keyId).Nodup)
    (hindex : index < shards.length) :
    ¬ FaultAt (shards.map Shard.segment ++ rest) index error := by
  have hget : ∀ i, ∀ hi : i < shards.length,
      (shards.map Shard.segment ++ rest)[i]? = some shards[i].segment := by
    intro i hi
    rw [List.getElem?_append_left (by simpa using hi), List.getElem?_map,
      List.getElem?_eq_getElem hi]
    rfl
  have hwell : ∀ i, ∀ hi : i < shards.length, shards[i].WellFormed :=
    fun i hi ↦ hshards _ (List.getElem_mem hi)
  intro hfault
  cases hfault with
  | malformed hpiece hbreaks =>
    obtain rfl := Option.some.inj ((hget index hindex).symm.trans hpiece)
    exact Shard.not_breaks_segment (hwell index hindex) _ hbreaks
  | @repeated shard other earlier hshard hpiece hearlier hother hsame hid =>
    have hlt : earlier < shards.length := hearlier.trans hindex
    have hshardEq := Shard.segment_injective (hwell index hindex) hshard
      (Option.some.inj ((hget index hindex).symm.trans hpiece))
    have hotherEq := Shard.segment_injective (hwell earlier hlt) hother
      (Option.some.inj ((hget earlier hlt).symm.trans hsame))
    -- Ids that differ from place to place are equal at one place only.
    refine List.nodup_iff_getElem?_ne_getElem?.mp hnodup earlier index hearlier
      (by simpa using hindex) ?_
    rw [List.getElem?_map, List.getElem?_map, List.getElem?_eq_getElem hlt,
      List.getElem?_eq_getElem hindex, Option.map_some, Option.map_some, hshardEq, hotherEq, hid]

/-- Where reading from a piece on has stopped: behind segments whose ids are new, at a piece that is
no segment or repeats an id. -/
theorem exists_stop_of_readSegments {seen : List KeyId} (hdash : ∀ piece ∈ pieces, '-' ∉ piece)
    (h : readSegments index seen pieces = .error error) :
    ∃ (shards : List Shard) (piece : List Char) (rest : List (List Char)),
      pieces = shards.map Shard.segment ++ piece :: rest ∧
      (∀ shard ∈ shards, shard.WellFormed) ∧ (shards.map Shard.keyId).Nodup ∧
      (∀ shard ∈ shards, shard.keyId ∉ seen) ∧
      ((∃ fault, Shard.Breaks piece fault ∧
          error = .malformedSegment (index + shards.length) fault) ∨
        ∃ shard : Shard, shard.WellFormed ∧ piece = shard.segment ∧
          (shard.keyId ∈ seen ∨ shard.keyId ∈ shards.map Shard.keyId) ∧
          error = .duplicateKeyId (index + shards.length) shard.keyId) := by
  induction pieces generalizing index seen with
  | nil => cases h
  | cons piece pieces ih =>
    obtain ⟨hpiece, hpieces⟩ := List.forall_mem_cons.mp hdash
    rw [readSegments] at h
    cases hread : Shard.ofSegment piece with
    | error fault =>
      rw [hread] at h
      cases h
      exact ⟨[], piece, pieces, rfl, List.forall_mem_nil _, List.nodup_nil, List.forall_mem_nil _,
        .inl ⟨fault, Shard.ofSegment_eq_error_iff.mp hread, rfl⟩⟩
    | ok shard =>
      rw [hread] at h
      obtain ⟨hwell, rfl⟩ := (Shard.ofSegment_eq_ok_iff hpiece).mp hread
      dsimp only at h
      by_cases hseen : shard.keyId ∈ seen
      · rw [if_pos hseen] at h
        cases h
        exact ⟨[], _, pieces, rfl, List.forall_mem_nil _, List.nodup_nil, List.forall_mem_nil _,
          .inr ⟨shard, hwell, rfl, .inl hseen, rfl⟩⟩
      rw [if_neg hseen] at h
      have hrest : readSegments (index + 1) (shard.keyId :: seen) pieces = .error error :=
        map_eq_error_iff.mp h
      obtain ⟨shards, stop, rest, rfl, hwells, hnodup, hfresh, hstop⟩ := ih hpieces hrest
      -- The shard comes in front; its id counts as one of those before the place now.
      have hnew : shard.keyId ∉ shards.map Shard.keyId := by
        intro hmem
        obtain ⟨other, hother, hid⟩ := List.mem_map.mp hmem
        exact hfresh other hother (hid ▸ List.mem_cons_self)
      have hlength : index + 1 + shards.length = index + (shard :: shards).length := by
        rw [List.length_cons]
        omega
      rw [hlength] at hstop
      refine ⟨shard :: shards, stop, rest, rfl, List.forall_mem_cons.mpr ⟨hwell, hwells⟩,
        List.nodup_cons.mpr ⟨hnew, hnodup⟩, ?_, ?_⟩
      · intro other hother hmem
        rcases List.mem_cons.mp hother with rfl | hother
        · exact hseen hmem
        · exact hfresh other hother (List.mem_cons_of_mem _ hmem)
      · refine hstop.imp_right ?_
        rintro ⟨last, hlast, hpiece, hid, herror⟩
        refine ⟨last, hlast, hpiece, ?_, herror⟩
        rw [List.map_cons, List.mem_cons]
        rw [List.mem_cons] at hid
        tauto

/-- Reading stops at the first fault. -/
theorem firstFault_of_readSegments (hdash : ∀ piece ∈ pieces, '-' ∉ piece)
    (h : readSegments 0 [] pieces = .error error) : ∃ index, FirstFault pieces index error := by
  obtain ⟨shards, piece, rest, rfl, hwells, hnodup, -, hstop⟩ := exists_stop_of_readSegments hdash h
  have hpiece : (shards.map Shard.segment ++ piece :: rest)[shards.length]? = some piece := by
    simp
  refine ⟨shards.length, ?_, fun earlier hearlier other ↦
    not_faultAt_of_segments _ hwells hnodup hearlier⟩
  rw [Nat.zero_add] at hstop
  rcases hstop with ⟨fault, hbreaks, rfl⟩ | ⟨shard, hshard, rfl, hid, rfl⟩
  · exact .malformed hpiece hbreaks
  · obtain ⟨other, hother, hsame⟩ := List.mem_map.mp (hid.resolve_left List.not_mem_nil)
    obtain ⟨earlier, hearlier, rfl⟩ := List.getElem_of_mem hother
    refine .repeated hshard hpiece hearlier (hwells _ hother) ?_ hsame
    simp [List.getElem?_append, hearlier]

theorem readSegments_eq_error_iff (hdash : ∀ piece ∈ pieces, '-' ∉ piece) :
    readSegments 0 [] pieces = .error error ↔ ∃ index, FirstFault pieces index error := by
  refine ⟨firstFault_of_readSegments hdash, ?_⟩
  rintro ⟨index, hfirst⟩
  cases hread : readSegments 0 [] pieces with
  | error other =>
    obtain ⟨index', hother⟩ := firstFault_of_readSegments hdash hread
    rw [hfirst.unique hother]
  | ok shards =>
    obtain ⟨hwells, hnodup, -, rfl⟩ := (readSegments_eq_ok_iff hdash).mp hread
    have hindex : index < shards.length := by
      simpa using hfirst.here.lt_length
    refine absurd hfirst.here ?_
    rw [← List.append_nil (shards.map Shard.segment)]
    exact not_faultAt_of_segments [] hwells hnodup hindex

end Faults

/-! ## The language and its faults -/

theorem decodeSimple_eq_ok_iff {text : String} {secret : Secret} :
    decodeSimple text = .ok secret ↔ secret.WellFormed ∧ text = secret.encodeSimple := by
  have hchars : text = secret.encodeSimple ↔ text.toList = secret.simpleChars := by
    rw [encodeSimple, ← String.toList_inj, String.toList_ofList]
  rw [decodeSimple, ofSimpleChars_eq_ok_iff, hchars]

theorem decodeSimple_eq_error_iff {text : String} {error : WireError} :
    decodeSimple text = .error error ↔
      text = "" ∧ error = .emptyInput ∨
        text ≠ "" ∧ ∃ index, FirstFault (pieces text) index error := by
  by_cases hempty : text = ""
  · subst hempty
    have hread : decodeSimple "" = .error .emptyInput := rfl
    rw [hread, Except.error.injEq, eq_comm]
    exact ⟨fun h ↦ .inl ⟨rfl, h⟩, fun h ↦ (h.resolve_right fun h ↦ h.1 rfl).2⟩
  · have hne : text.toList ≠ [] := by
      simpa using hempty
    have hdash : ∀ piece ∈ pieces text, '-' ∉ piece := fun _ ↦ separator_notMem_of_mem_splitOn
    rw [decodeSimple, ofSimpleChars, if_neg hne, map_eq_error_iff, ← pieces,
      readSegments_eq_error_iff hdash]
    exact ⟨fun h ↦ .inr ⟨hempty, h⟩, fun h ↦ (h.resolve_left fun h ↦ hempty h.1).2⟩

/-- **The grammar of the simple form.** A text is read exactly when it is one or more segments with
different ids, joined by dashes, and what is read is written as that text. The empty text has an
error of its own. Any other text fails with the fault of its first faulty piece: one that breaks a
rule of segments, and so is none, or one that repeats an id. What stands behind that piece makes no
difference. -/
theorem decodeSimple_grammar (text : String) :
    (∀ secret, decodeSimple text = .ok secret ↔
      secret.WellFormed ∧ text = secret.encodeSimple) ∧
    (∀ error, decodeSimple text = .error error ↔
      text = "" ∧ error = .emptyInput ∨
        text ≠ "" ∧ ∃ index, FirstFault (pieces text) index error) ∧
    (∀ piece ∈ pieces text, (∃ fault, Shard.Breaks piece fault) ↔
      ¬ ∃ shard : Shard, shard.WellFormed ∧ piece = shard.segment) ∧
    (∀ (other : String) (index : Nat) (error : WireError), text ≠ "" → other ≠ "" →
      FirstFault (pieces text) index error →
      (pieces other).take (index + 1) = (pieces text).take (index + 1) →
        decodeSimple text = .error error ∧ decodeSimple other = .error error) := by
  refine ⟨fun secret ↦ decodeSimple_eq_ok_iff, fun error ↦ decodeSimple_eq_error_iff, ?_, ?_⟩
  · intro piece hpiece
    exact Shard.exists_breaks_iff (separator_notMem_of_mem_splitOn hpiece)
  · intro other index error htext hother hfirst hsame
    have hcongr : FirstFault (pieces other) index error := hfirst.congr hsame
    exact ⟨decodeSimple_eq_error_iff.mpr (.inr ⟨htext, index, hfirst⟩),
      decodeSimple_eq_error_iff.mpr (.inr ⟨hother, index, hcongr⟩)⟩

/-- The second segment repeats the id of the first, whatever comes behind it. -/
theorem decodeSimple_grammar_repeated :
    "A(B)-A(C)-D" ≠ "" ∧ "A(B)-A(C)" ≠ "" ∧
    FirstFault (pieces "A(B)-A(C)-D") 1 (.duplicateKeyId 1 ⟨"A"⟩) ∧
    (pieces "A(B)-A(C)").take 2 = (pieces "A(B)-A(C)-D").take 2 ∧
    decodeSimple "A(B)-A(C)-D" = .error (.duplicateKeyId 1 ⟨"A"⟩) ∧
    decodeSimple "A(B)-A(C)" = .error (.duplicateKeyId 1 ⟨"A"⟩) := by
  have hfirstWell : Shard.WellFormed ⟨⟨"A"⟩, "B"⟩ := by
    constructor <;> constructor <;> decide
  have hsecondWell : Shard.WellFormed ⟨⟨"A"⟩, "C"⟩ := by
    constructor <;> constructor <;> decide
  have hpieces : pieces "A(B)-A(C)-D" =
      [⟨⟨"A"⟩, "B"⟩].map Shard.segment ++ [Shard.segment ⟨⟨"A"⟩, "C"⟩, ['D']] := by
    decide +kernel
  have hfault : FirstFault (pieces "A(B)-A(C)-D") 1 (.duplicateKeyId 1 ⟨"A"⟩) := by
    rw [hpieces]
    refine ⟨.repeated hsecondWell rfl Nat.zero_lt_one hfirstWell rfl rfl, ?_⟩
    intro earlier hlt other
    exact not_faultAt_of_segments _ (List.forall_mem_singleton.mpr hfirstWell)
      (List.nodup_singleton _) hlt
  have hsame : (pieces "A(B)-A(C)").take 2 = (pieces "A(B)-A(C)-D").take 2 := by
    decide +kernel
  obtain ⟨-, -, -, hstop⟩ := decodeSimple_grammar "A(B)-A(C)-D"
  exact ⟨by decide, by decide, hfault, hsame,
    hstop "A(B)-A(C)" 1 _ (by decide) (by decide) hfault hsame⟩

end Secret

end DualSeal
