import DualSeal.Proofs.Secret.Wire

/-!
# What is read was written

A text is read as a secret only if it is the simple form of that secret, and the secret is well
formed (`ofSimpleChars_eq_ok_iff`): no stray delimiter, repeated id or second spelling gets past
the reader. A secret is therefore read back from what it was written as exactly when it is well
formed (`reads_back_iff`).

Automatic reading skips blanks in front of a text, which makes one exception: a first id that
begins with a blank loses it. It never takes a simple form for an armoured one, since no dash
comes before the first parenthesis.
-/

namespace DualSeal

theorem isField_ofList {chars : List Char} (hne : chars ≠ []) (hopening : '(' ∉ chars)
    (hclosing : ')' ∉ chars) (hdash : '-' ∉ chars) : IsField (String.ofList chars) := by
  constructor
  all_goals rw [String.toList_ofList]
  all_goals assumption

/-! ## Segments -/

namespace Shard

/-- A piece with one opening parenthesis is cut there. -/
theorem exists_cut_of_count {piece : List Char} (h : piece.count '(' = 1) :
    ∃ id rest, piece = id ++ '(' :: rest ∧ '(' ∉ id ∧ '(' ∉ rest := by
  obtain ⟨id, rest, rfl, hid⟩ := List.eq_append_cons_of_mem (List.one_le_count_iff.mp h.ge)
  have hrest : rest.count '(' = 0 := by
    simpa [List.count_eq_zero.mpr hid] using h
  exact ⟨id, rest, rfl, hid, List.count_eq_zero.mp hrest⟩

theorem ofSegment_cut (id rest : List Char) (hid : '(' ∉ id) (hrest : '(' ∉ rest) :
    ofSegment (id ++ '(' :: rest) =
      if id.count ')' + rest.count ')' ≠ 1 then .error .closings
      else if rest.getLast? ≠ some ')' then .error .unclosed
      else if id = [] then .error .emptyKeyId
      else if rest.dropLast = [] then .error .emptyValue
      else .ok ⟨⟨String.ofList id⟩, String.ofList rest.dropLast⟩ := by
  have hopenings : (id ++ '(' :: rest).count '(' = 1 := by
    simp [List.count_eq_zero.mpr hid, List.count_eq_zero.mpr hrest]
  have hclosings : (id ++ '(' :: rest).count ')' = id.count ')' + rest.count ')' := by
    simp
  obtain ⟨htake, hdrop⟩ := cut_at_opening rest hid
  rw [ofSegment, if_neg (not_not.mpr hopenings), hclosings]
  simp only [htake, hdrop]

theorem ofSegment_unclosed {piece : List Char} (hopenings : piece.count '(' = 1)
    (hclosings : piece.count ')' = 1) (hlast : piece.getLast? ≠ some ')') :
    ofSegment piece = .error .unclosed := by
  obtain ⟨id, rest, rfl, hid, hrest⟩ := exists_cut_of_count hopenings
  have hopen : rest.getLast? ≠ some ')' := by
    intro heq
    exact hlast (by simp [List.getLast?_append, List.getLast?_cons, heq])
  rw [ofSegment_cut _ _ hid hrest, if_neg (by simpa using hclosings), if_pos hopen]

/-- A piece with one parenthesis of each kind, the closing one at its end, has them around a value
and none elsewhere. -/
theorem exists_enclosed {piece : List Char} (hopenings : piece.count '(' = 1)
    (hclosings : piece.count ')' = 1) (hlast : piece.getLast? = some ')') :
    ∃ id value, piece = id ++ '(' :: (value ++ [')']) ∧ ('(' ∉ id ∧ ')' ∉ id) ∧
      '(' ∉ value ∧ ')' ∉ value := by
  obtain ⟨id, rest, rfl, hid, hrest⟩ := exists_cut_of_count hopenings
  -- The closing parenthesis is the last character, so it stands behind the opening one.
  have hne : rest ≠ [] := by
    rintro rfl
    simp at hlast
  have hrestLast : rest.getLast? = some ')' := by
    rw [List.getLast?_append, List.getLast?_cons, List.getLast?_eq_some_getLast hne] at hlast
    rw [List.getLast?_eq_some_getLast hne]
    exact hlast
  obtain ⟨value, rfl⟩ : ∃ value, rest = value ++ [')'] :=
    ⟨rest.dropLast, (List.dropLast_append_getLast? ')' hrestLast).symm⟩
  simp only [List.count_append, List.count_cons, List.count_nil, List.mem_append, not_or]
    at hclosings hrest
  exact ⟨id, value, rfl, ⟨hid, List.count_eq_zero.mp (by grind)⟩, hrest.1,
    List.count_eq_zero.mp (by grind)⟩

theorem ofSegment_enclosed {id value : List Char} (hid : '(' ∉ id ∧ ')' ∉ id)
    (hvalue : '(' ∉ value ∧ ')' ∉ value) :
    ofSegment (id ++ '(' :: (value ++ [')'])) =
      if id = [] then .error .emptyKeyId
      else if value = [] then .error .emptyValue
      else .ok ⟨⟨String.ofList id⟩, String.ofList value⟩ := by
  have hclosings : id.count ')' + (value ++ [')']).count ')' = 1 := by
    simp [List.count_eq_zero.mpr hid.2, List.count_eq_zero.mpr hvalue.2]
  rw [ofSegment_cut _ _ hid.1 (by simp [hvalue.1]), if_neg (not_not.mpr hclosings),
    if_neg (by simp), List.dropLast_concat]

/-- A piece without dashes is read as a shard exactly when it is the segment of that shard, and the
shard is well formed. -/
theorem ofSegment_eq_ok_iff {piece : List Char} {shard : Shard} (hdash : '-' ∉ piece) :
    ofSegment piece = .ok shard ↔ shard.WellFormed ∧ piece = shard.segment := by
  refine ⟨fun h ↦ ?_, fun ⟨hshard, heq⟩ ↦ heq ▸ ofSegment_segment hshard⟩
  have hopenings : piece.count '(' = 1 := by
    by_contra hne
    rw [ofSegment, if_pos hne] at h
    cases h
  have hclosings : piece.count ')' = 1 := by
    by_contra hne
    rw [ofSegment, if_neg (not_not.mpr hopenings), if_pos hne] at h
    cases h
  have hlast : piece.getLast? = some ')' := by
    by_contra hne
    rw [ofSegment_unclosed hopenings hclosings hne] at h
    cases h
  obtain ⟨id, value, rfl, hid, hvalue⟩ := exists_enclosed hopenings hclosings hlast
  rw [ofSegment_enclosed hid hvalue] at h
  split_ifs at h with hidNil hvalueNil
  cases h
  simp only [List.mem_append, List.mem_cons, not_or] at hdash
  have hidField : IsField (String.ofList id) := isField_ofList hidNil hid.1 hid.2 hdash.1
  have hvalueField : IsField (String.ofList value) :=
    isField_ofList hvalueNil hvalue.1 hvalue.2 hdash.2.2.1
  exact ⟨⟨hidField, hvalueField⟩, by simp [segment]⟩

end Shard

namespace Secret

/-! ## The simple form -/

theorem separator_notMem_of_mem_splitOn {text piece : List Char} {separator : Char}
    (h : piece ∈ text.splitOn separator) : separator ∉ piece := by
  induction text generalizing piece with
  | nil =>
    rw [List.splitOn_nil, List.mem_singleton] at h
    rw [h]
    exact List.not_mem_nil
  | cons c text ih =>
    obtain ⟨first, others, hsplit⟩ :=
      List.exists_cons_of_ne_nil (List.splitOn_ne_nil separator text)
    rw [List.splitOn_cons_eq_if_modifyHead, hsplit] at h
    rw [hsplit] at ih
    by_cases hc : c = separator
    · rw [if_pos (beq_iff_eq.mpr hc)] at h
      rcases List.mem_cons.mp h with rfl | h
      · exact List.not_mem_nil
      · exact ih h
    · rw [if_neg (by simpa using hc), List.modifyHead_cons] at h
      rcases List.mem_cons.mp h with rfl | h
      · rw [List.mem_cons, not_or]
        exact ⟨Ne.symm hc, ih List.mem_cons_self⟩
      · exact ih (List.mem_cons_of_mem _ h)

/-- Pieces without dashes are read as shards exactly when they are the segments of these, which are
well formed and have ids that differ from each other and from those seen before. -/
theorem readSegments_eq_ok_iff {index : Nat} {seen : List KeyId} {pieces : List (List Char)}
    {shards : List Shard} (hdash : ∀ piece ∈ pieces, '-' ∉ piece) :
    readSegments index seen pieces = .ok shards
      ↔ (∀ shard ∈ shards, shard.WellFormed) ∧ (shards.map Shard.keyId).Nodup ∧
        (∀ shard ∈ shards, shard.keyId ∉ seen) ∧ pieces = shards.map Shard.segment := by
  constructor
  · intro h
    induction pieces generalizing index seen shards with
    | nil =>
      cases h
      exact ⟨nofun, List.nodup_nil, nofun, rfl⟩
    | cons piece pieces ih =>
      obtain ⟨hpiece, hpieces⟩ := List.forall_mem_cons.mp hdash
      rw [readSegments] at h
      cases hshard : Shard.ofSegment piece with
      | error fault =>
        rw [hshard] at h
        cases h
      | ok shard =>
        rw [hshard] at h
        obtain ⟨hwell, rfl⟩ := (Shard.ofSegment_eq_ok_iff hpiece).mp hshard
        dsimp only at h
        split at h
        · cases h
        rename_i hfresh
        obtain ⟨rest, hrest, rfl⟩ := map_eq_ok_iff.mp h
        -- The others were read with the id of this shard among those seen.
        obtain ⟨hwells, hnodup, hseen, rfl⟩ := ih hpieces hrest
        refine ⟨List.forall_mem_cons.mpr ⟨hwell, hwells⟩, ?_, ?_, rfl⟩
        · rw [List.map_cons, List.nodup_cons, List.mem_map]
          refine ⟨?_, hnodup⟩
          rintro ⟨other, hother, hid⟩
          exact hseen other hother (hid ▸ List.mem_cons_self)
        · refine List.forall_mem_cons.mpr ⟨hfresh, fun other hother hmem ↦ ?_⟩
          exact hseen other hother (List.mem_cons_of_mem _ hmem)
  · rintro ⟨hwell, hnodup, hseen, rfl⟩
    exact readSegments_map_segment index hwell hnodup hseen

/-- **Canonicity.** A text is read as a secret exactly when it is the simple form of that secret,
and the secret is well formed. -/
theorem ofSimpleChars_eq_ok_iff {text : List Char} {secret : Secret} :
    ofSimpleChars text = .ok secret ↔ secret.WellFormed ∧ text = secret.simpleChars := by
  refine ⟨fun h ↦ ?_, fun ⟨hwell, heq⟩ ↦ heq ▸ ofSimpleChars_simpleChars hwell⟩
  rw [ofSimpleChars] at h
  split at h
  · cases h
  obtain ⟨shards, hshards, rfl⟩ := map_eq_ok_iff.mp h
  obtain ⟨hwell, hnodup, -, hpieces⟩ :=
    (readSegments_eq_ok_iff fun _ ↦ separator_notMem_of_mem_splitOn).mp hshards
  refine ⟨⟨?_, hwell, hnodup⟩, ?_⟩
  · rintro rfl
    exact List.splitOn_ne_nil _ _ hpieces
  · rw [simpleChars, ← hpieces, List.intercalate_splitOn]

/-! ## The armoured form -/

theorem wellFormed_of_ofPemChars {text : List Char} {secret : Secret}
    (h : ofPemChars text = .ok secret) : secret.WellFormed := by
  rw [ofPemChars] at h
  split at h
  · cases h
  split at h
  · split at h
    · cases h
    · exact (ofSimpleChars_eq_ok_iff.mp h).1
  · cases h

/-! ## Either form -/

theorem wellFormed_of_decode {text : String} {secret : Secret} (h : decode text = .ok secret) :
    secret.WellFormed := by
  rw [decode] at h
  cases hformat : formatOf text with
  | simple =>
    rw [hformat] at h
    exact (ofSimpleChars_eq_ok_iff.mp h).1
  | pem =>
    rw [hformat] at h
    exact wellFormed_of_ofPemChars h

private theorem length_trimEnd_le (text : List Char) :
    (Text.trimEnd text).length ≤ text.length := by
  rw [Text.trimEnd, List.length_reverse]
  have hlength := (List.dropWhile_suffix Text.isBlank : _ <:+ text.reverse).length_le
  rwa [List.length_reverse] at hlength

/-- A simple form that is read back has lost nothing to trimming. -/
theorem startsVisible_of_decode_encodeSimple {secret : Secret}
    (h : decode secret.encodeSimple = .ok secret) : secret.StartsVisible := by
  have hwell := wellFormed_of_decode h
  rw [decode, formatOf_encodeSimple_of_wellFormed hwell, encodeSimple, String.toList_ofList] at h
  obtain ⟨-, htrimmed⟩ := ofSimpleChars_eq_ok_iff.mp h
  obtain ⟨c, tail, hcons, hvisible⟩ := simpleChars_eq_cons hwell
  rw [hcons] at htrimmed
  rw [hvisible]
  by_contra hblank
  -- Were the first character trimmed, what is read would be shorter than what was written.
  have hstart : Text.trimStart (c :: tail) = Text.trimStart tail :=
    List.dropWhile_cons_of_pos (by simpa using hblank)
  rw [hstart] at htrimmed
  have hlength : (c :: tail).length ≤ tail.length := by
    calc (c :: tail).length = (Text.trimEnd (Text.trimStart tail)).length := by rw [htrimmed]
      _ ≤ (Text.trimStart tail).length := length_trimEnd_le _
      _ ≤ tail.length := (List.dropWhile_suffix _).length_le
  exact absurd hlength (by simp)

/-- **Reading back.** A secret is read back from either form exactly when it has shards, their ids
differ, and no id or value is empty or holds a delimiter; where blanks are trimmed from the simple
form, the first id may not begin with one either. -/
theorem reads_back_iff (secret : Secret) :
    (decodeSimple secret.encodeSimple = .ok secret ↔ secret.WellFormed) ∧
    (decodePem secret.encodePem = .ok secret ↔ secret.WellFormed) ∧
    (decode secret.encodePem = .ok secret ↔ secret.WellFormed) ∧
    (decode secret.encodeSimple = .ok secret ↔ secret.WellFormed ∧ secret.StartsVisible) := by
  refine ⟨⟨fun h ↦ ?_, decodeSimple_encodeSimple⟩, ⟨fun h ↦ ?_, decodePem_encodePem⟩,
    ⟨wellFormed_of_decode, decode_encodePem⟩, ⟨fun h ↦ ?_, fun ⟨hwell, hvisible⟩ ↦ ?_⟩⟩
  · exact (ofSimpleChars_eq_ok_iff.mp h).1
  · exact wellFormed_of_ofPemChars h
  · exact ⟨wellFormed_of_decode h, startsVisible_of_decode_encodeSimple h⟩
  · exact decode_encode hwell hvisible .simple

/-- A blank at the very beginning is trimmed away and is no part of the id any more. -/
example : decode (encodeSimple ⟨[⟨⟨" a"⟩, "AAAA"⟩]⟩) = .ok ⟨[⟨⟨"a"⟩, "AAAA"⟩]⟩ := by
  decide +kernel

end Secret

end DualSeal
