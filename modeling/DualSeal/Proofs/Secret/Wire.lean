import DualSeal.Proofs.Encoding.Pem
import DualSeal.Proofs.Text.Utf8
import DualSeal.Secret.Wire

/-!
# Reading a written secret

A secret whose ids and values are fields (not empty, no delimiter inside) and whose ids differ is
read back from both written forms. Nothing is escaped, so this is where it matters that base64
avoids the delimiters; and a value spells one ciphertext only, because base64 has one spelling for
it (`Shard.ciphertext_eq_ok_iff`).
-/

namespace DualSeal

/-- A text that can stand as an id or as a value: not empty, without delimiters. -/
structure IsField (text : String) : Prop where
  ne_nil : text.toList ≠ []
  noOpening : '(' ∉ text.toList
  noClosing : ')' ∉ text.toList
  noDash : '-' ∉ text.toList

/-! ## Segments -/

namespace Shard

/-- A shard whose id and value are fields. -/
structure WellFormed (shard : Shard) : Prop where
  keyId : IsField shard.keyId.text
  value : IsField shard.value

theorem segment_ne_nil (shard : Shard) : shard.segment ≠ [] := by
  simp [segment]

theorem dash_notMem_segment {shard : Shard} (h : shard.WellFormed) : '-' ∉ shard.segment := by
  simp [segment, h.keyId.noDash, h.value.noDash]

theorem cut_at_opening {id : List Char} (rest : List Char) (h : '(' ∉ id) :
    (id ++ '(' :: rest).takeWhile (· ≠ '(') = id ∧
      (id ++ '(' :: rest).drop (id.length + 1) = rest := by
  constructor
  · rw [List.takeWhile_append_of_pos]
    · simp
    · intro c hc
      rw [decide_eq_true_eq]
      rintro rfl
      exact h hc
  · rw [← List.drop_drop, List.drop_left]
    rfl

theorem ofSegment_segment {shard : Shard} (h : shard.WellFormed) :
    ofSegment shard.segment = .ok shard := by
  have hopenings : shard.segment.count '(' = 1 := by
    simp [segment, List.count_eq_zero.mpr h.keyId.noOpening,
      List.count_eq_zero.mpr h.value.noOpening]
  have hclosings : shard.segment.count ')' = 1 := by
    simp [segment, List.count_eq_zero.mpr h.keyId.noClosing,
      List.count_eq_zero.mpr h.value.noClosing]
  obtain ⟨hid, hrest⟩ := cut_at_opening (shard.value.toList ++ [')']) h.keyId.noOpening
  rw [← List.cons_append, ← List.append_assoc, ← segment] at hid hrest
  rw [ofSegment, if_neg (by simp [hopenings]), if_neg (by simp [hclosings])]
  dsimp only
  rw [hid, hrest, if_neg (by simp), if_neg h.keyId.ne_nil, List.dropLast_concat,
    if_neg h.value.ne_nil, String.ofList_toList, String.ofList_toList]

end Shard

/-! ## Values -/

private theorem spelling_chars : ∀ b : UInt8, Base64.IsSpelling b →
    Char.ofNat b.toNat ≠ '(' ∧ Char.ofNat b.toNat ≠ ')' ∧ Char.ofNat b.toNat ≠ '-' := by
  decide +kernel

private theorem delimiter_of_mem_encodeValue {ciphertext : Bytes} {c : Char}
    (h : c ∈ (Shard.encodeValue ciphertext).toList) : c ≠ '(' ∧ c ≠ ')' ∧ c ≠ '-' := by
  rw [Shard.encodeValue, Bytes.toLatin, String.toList_ofList] at h
  obtain ⟨b, hb, rfl⟩ := List.mem_map.mp h
  exact spelling_chars b (Base64.isSpelling_of_mem_encode hb)

theorem isField_encodeValue {ciphertext : Bytes} (h : ciphertext ≠ []) :
    IsField (Shard.encodeValue ciphertext) where
  ne_nil := by
    rw [Shard.encodeValue, Bytes.toLatin, String.toList_ofList, Ne, List.map_eq_nil_iff,
      Base64.encode_eq_nil_iff]
    exact h
  noOpening hmem := (delimiter_of_mem_encodeValue hmem).1 rfl
  noClosing hmem := (delimiter_of_mem_encodeValue hmem).2.1 rfl
  noDash hmem := (delimiter_of_mem_encodeValue hmem).2.2 rfl

theorem encodeString_encodeValue (ciphertext : Bytes) :
    Utf8.encodeString (Shard.encodeValue ciphertext) = Base64.encode ciphertext :=
  Utf8.encodeString_toLatin fun _ hb ↦ Pem.ascii_of_isSpelling (Base64.isSpelling_of_mem_encode hb)

/-- **One value for a ciphertext.** A value is read as a ciphertext exactly when it is what that
ciphertext is written as. -/
theorem Shard.ciphertext_eq_ok_iff {shard : Shard} {ciphertext : Bytes} :
    shard.ciphertext = .ok ciphertext ↔ shard.value = Shard.encodeValue ciphertext := by
  have hread : shard.ciphertext = .ok ciphertext
      ↔ Base64.decode (Utf8.encodeString shard.value) = .ok ciphertext := by
    rw [Shard.ciphertext]
    cases Base64.decode (Utf8.encodeString shard.value) <;> simp
  rw [hread, Base64.decode_eq_ok_iff, ← encodeString_encodeValue]
  exact ⟨Utf8.encodeString_injective, congrArg Utf8.encodeString⟩

theorem Shard.encodeValue_injective {a b : Bytes} (h : Shard.encodeValue a = Shard.encodeValue b) :
    a = b := by
  have hread : (Shard.mk default (Shard.encodeValue a)).ciphertext = .ok b :=
    Shard.ciphertext_eq_ok_iff.mpr h
  rw [Shard.ciphertext_eq_ok_iff.mpr rfl] at hread
  exact Except.ok.inj hread

namespace Secret

/-! ## The simple form -/

/-- A secret that has shards, all well formed and with different ids. -/
structure WellFormed (secret : Secret) : Prop where
  ne_nil : secret.shards ≠ []
  shards : ∀ shard ∈ secret.shards, shard.WellFormed
  nodup : secret.keyIds.Nodup

theorem readSegments_map_segment {shards : List Shard} (index : Nat) {seen : List KeyId}
    (hshards : ∀ shard ∈ shards, shard.WellFormed) (hnodup : (shards.map Shard.keyId).Nodup)
    (hseen : ∀ shard ∈ shards, shard.keyId ∉ seen) :
    readSegments index seen (shards.map Shard.segment) = .ok shards := by
  induction shards generalizing index seen with
  | nil => rfl
  | cons shard shards ih =>
    rw [List.map_cons, List.nodup_cons] at hnodup
    -- The id of the shard is seen from here on, and the others differ from it.
    have hrest : ∀ other ∈ shards, other.keyId ∉ shard.keyId :: seen := by
      intro other hother hmem
      rcases List.mem_cons.mp hmem with heq | hmem
      · exact hnodup.1 (heq ▸ List.mem_map_of_mem hother)
      · exact hseen other (List.mem_cons_of_mem _ hother) hmem
    rw [List.map_cons, readSegments, Shard.ofSegment_segment (hshards shard List.mem_cons_self)]
    dsimp only
    rw [if_neg (hseen shard List.mem_cons_self),
      ih (index + 1) (fun other hother ↦ hshards other (List.mem_cons_of_mem _ hother)) hnodup.2
        hrest]
    rfl

theorem simpleChars_cons (shard : Shard) (shards : List Shard) :
    ∃ tail, simpleChars ⟨shard :: shards⟩ = shard.segment ++ tail := by
  rw [simpleChars, List.map_cons]
  cases shards.map Shard.segment with
  | nil => exact ⟨[], by simp⟩
  | cons segment segments => exact ⟨_, by rw [List.intercalate_cons_cons, List.append_assoc]⟩

theorem simpleChars_ne_nil {secret : Secret} (h : secret.shards ≠ []) :
    secret.simpleChars ≠ [] := by
  obtain ⟨shard, shards, hshards⟩ := List.exists_cons_of_ne_nil h
  obtain ⟨tail, htail⟩ := simpleChars_cons shard shards
  rw [show secret = ⟨shard :: shards⟩ from congrArg Secret.mk hshards, htail]
  simp [shard.segment_ne_nil]

theorem ofSimpleChars_simpleChars {secret : Secret} (h : secret.WellFormed) :
    ofSimpleChars secret.simpleChars = .ok secret := by
  have hdash : ∀ segment ∈ secret.shards.map Shard.segment, '-' ∉ segment := by
    intro segment hsegment
    obtain ⟨shard, hshard, rfl⟩ := List.mem_map.mp hsegment
    exact Shard.dash_notMem_segment (h.shards shard hshard)
  have hne : secret.shards.map Shard.segment ≠ [] := by
    rw [Ne, List.map_eq_nil_iff]
    exact h.ne_nil
  rw [ofSimpleChars, if_neg (simpleChars_ne_nil h.ne_nil), simpleChars,
    List.splitOn_intercalate '-' hdash hne,
    readSegments_map_segment 0 h.shards h.nodup fun _ _ ↦ List.not_mem_nil]
  rfl

theorem decodeSimple_encodeSimple {secret : Secret} (h : secret.WellFormed) :
    decodeSimple secret.encodeSimple = .ok secret := by
  rw [decodeSimple, encodeSimple, String.toList_ofList, ofSimpleChars_simpleChars h]

/-! ## The armoured form -/

private theorem isLabel_label : Pem.IsLabel (Bytes.ofAscii label) := by
  decide +kernel

private theorem ascii_label : ∀ b ∈ Bytes.ofAscii label, b.toNat < 0x80 := by
  decide +kernel

theorem encodeString_encodePem (secret : Secret) :
    Utf8.encodeString secret.encodePem
      = Pem.encode (Bytes.ofAscii label) (Utf8.encode secret.simpleChars) :=
  Utf8.encodeString_toLatin fun _ hb ↦ Pem.ascii_of_mem_encode ascii_label hb

theorem decodePem_encodePem {secret : Secret} (h : secret.WellFormed) :
    decodePem secret.encodePem = .ok secret := by
  have hbody : Utf8.encode secret.simpleChars ≠ [] := by
    intro hnil
    have hread := Utf8.decode_encode secret.simpleChars
    rw [hnil] at hread
    exact simpleChars_ne_nil h.ne_nil (Except.ok.inj hread).symm
  have hblock := Pem.decode_encode isLabel_label hbody
  rw [← encodeString_encodePem, Utf8.encodeString] at hblock
  rw [decodePem, ofPemChars, hblock]
  dsimp only
  rw [if_pos rfl, Utf8.decode_encode]
  exact ofSimpleChars_simpleChars h

/-! ## Telling the forms apart -/

/-- A secret whose first id does not begin with a blank. -/
def StartsVisible (secret : Secret) : Prop :=
  ∀ shard ∈ secret.shards.head?, ∀ c ∈ shard.keyId.text.toList.head?, Text.isBlank c = false

theorem simpleChars_eq_cons {secret : Secret} (h : secret.WellFormed) :
    ∃ c tail, secret.simpleChars = c :: tail ∧
      (secret.StartsVisible ↔ Text.isBlank c = false) := by
  obtain ⟨shard, shards, hshards⟩ := List.exists_cons_of_ne_nil h.ne_nil
  have hshard : shard ∈ secret.shards := hshards ▸ List.mem_cons_self
  obtain ⟨c, id, hid⟩ := List.exists_cons_of_ne_nil (h.shards shard hshard).keyId.ne_nil
  obtain ⟨tail, htail⟩ := simpleChars_cons shard shards
  refine ⟨c, id ++ '(' :: shard.value.toList ++ [')'] ++ tail, ?_, ?_⟩
  · rw [show secret = ⟨shard :: shards⟩ from congrArg Secret.mk hshards, htail, Shard.segment, hid]
    rfl
  · simp [StartsVisible, hshards, hid]

theorem trimStart_cons {c : Char} {text : List Char} (h : Text.isBlank c = false) :
    Text.trimStart (c :: text) = c :: text := by
  rw [Text.trimStart, List.dropWhile_cons_of_neg (by rw [h]; decide)]

/-- What comes before a parenthesis without a dash does not begin with one behind its blanks. -/
theorem exists_trimStart_eq_cons {id : List Char} (rest : List Char) (hdash : '-' ∉ id) :
    ∃ c tail, Text.trimStart (id ++ '(' :: rest) = c :: tail ∧ c ≠ '-' := by
  induction id with
  | nil => exact ⟨'(', rest, trimStart_cons (by decide), by decide⟩
  | cons c id ih =>
    rw [List.mem_cons, not_or] at hdash
    by_cases hblank : Text.isBlank c
    · rw [List.cons_append, Text.trimStart, List.dropWhile_cons_of_pos hblank]
      exact ih hdash.2
    · exact ⟨c, id ++ '(' :: rest, trimStart_cons (by simpa using hblank), Ne.symm hdash.1⟩

theorem simpleChars_eq_concat {secret : Secret} (h : secret.shards ≠ []) :
    ∃ text, secret.simpleChars = text ++ [')'] := by
  obtain ⟨shards⟩ := secret
  induction shards with
  | nil => exact absurd rfl h
  | cons shard shards ih =>
    rw [simpleChars, List.map_cons]
    by_cases hnil : shards = []
    · rw [hnil, List.map_nil, List.intercalate_singleton]
      exact ⟨_, rfl⟩
    · obtain ⟨text, htext⟩ := ih hnil
      have hne : shards.map Shard.segment ≠ [] := by
        rw [Ne, List.map_eq_nil_iff]
        exact hnil
      rw [List.intercalate_cons_of_ne_nil hne]
      rw [simpleChars] at htext
      rw [htext]
      exact ⟨_, (List.append_assoc _ _ _).symm⟩

theorem trimEnd_concat_closing (text : List Char) :
    Text.trimEnd (text ++ [')']) = text ++ [')'] := by
  rw [Text.trimEnd, List.reverse_append, List.reverse_singleton, List.singleton_append,
    List.dropWhile_cons_of_neg (by decide), List.reverse_cons, List.reverse_reverse]

private theorem armour_eq_cons : armour = '-' :: "----BEGIN".toList := by
  decide +kernel

theorem armour_prefix_encodePem (secret : Secret) :
    ∃ tail, secret.encodePem.toList = armour ++ tail := by
  have hopening : Pem.opening.map (fun b ↦ Char.ofNat b.toNat) = armour ++ [' '] := by
    decide +kernel
  rw [encodePem, Pem.encodeText, Bytes.toLatin, String.toList_ofList,
    Pem.encode_eq_opening_append, List.map_append, hopening, List.append_assoc]
  exact ⟨_, rfl⟩

theorem trimStart_armour (tail : List Char) : Text.trimStart (armour ++ tail) = armour ++ tail := by
  rw [armour_eq_cons, List.cons_append, trimStart_cons (by decide)]

/-- A simple form is taken for one whatever it begins with, since no dash comes before the first
parenthesis. -/
theorem formatOf_encodeSimple {shard : Shard} (shards : List Shard)
    (hdash : '-' ∉ shard.keyId.text.toList) :
    formatOf (encodeSimple ⟨shard :: shards⟩) = .simple := by
  obtain ⟨tail, htail⟩ := simpleChars_cons shard shards
  obtain ⟨c, rest, hcons, hc⟩ :=
    exists_trimStart_eq_cons (shard.value.toList ++ [')'] ++ tail) hdash
  have hstart : Text.trimStart (encodeSimple ⟨shard :: shards⟩).toList = c :: rest := by
    rw [encodeSimple, String.toList_ofList, htail, Shard.segment, ← hcons]
    simp only [List.append_assoc, List.cons_append]
  have harmour : armour.isPrefixOf (c :: rest) = false := by
    have hne : ('-' == c) = false := beq_eq_false_iff_ne.mpr (Ne.symm hc)
    rw [armour_eq_cons, List.isPrefixOf, hne, Bool.false_and]
  rw [formatOf, hstart, harmour]
  rfl

theorem formatOf_encodePem (secret : Secret) : formatOf secret.encodePem = .pem := by
  obtain ⟨tail, htail⟩ := armour_prefix_encodePem secret
  have harmour : armour.isPrefixOf (armour ++ tail) = true :=
    List.isPrefixOf_iff_prefix.mpr (List.prefix_append _ _)
  rw [formatOf, htail, trimStart_armour, harmour]
  rfl

theorem decode_encodePem {secret : Secret} (h : secret.WellFormed) :
    decode secret.encodePem = .ok secret := by
  obtain ⟨tail, htail⟩ := armour_prefix_encodePem secret
  have hstart : Text.trimStart secret.encodePem.toList = secret.encodePem.toList := by
    rw [htail, trimStart_armour]
  rw [decode, formatOf_encodePem, hstart]
  exact decodePem_encodePem h

theorem formatOf_encodeSimple_of_wellFormed {secret : Secret} (h : secret.WellFormed) :
    formatOf secret.encodeSimple = .simple := by
  obtain ⟨shard, shards, hshards⟩ := List.exists_cons_of_ne_nil h.ne_nil
  have hshard : shard ∈ secret.shards := hshards ▸ List.mem_cons_self
  rw [show secret = ⟨shard :: shards⟩ from congrArg Secret.mk hshards]
  exact formatOf_encodeSimple shards (h.shards shard hshard).keyId.noDash

/-- **Reading.** A well formed secret is read back from either form. -/
theorem decode_encode {secret : Secret} (h : secret.WellFormed) (hvisible : secret.StartsVisible)
    (format : WireFormat) : decode (secret.encode format) = .ok secret := by
  cases format with
  | simple =>
    obtain ⟨c, tail, hcons, hblank⟩ := simpleChars_eq_cons h
    obtain ⟨text, htext⟩ := simpleChars_eq_concat h.ne_nil
    have hstart : Text.trimStart secret.simpleChars = secret.simpleChars := by
      rw [hcons, trimStart_cons (hblank.mp hvisible)]
    rw [encode, decode, formatOf_encodeSimple_of_wellFormed h]
    dsimp only
    rw [encodeSimple, String.toList_ofList, hstart, htext, trimEnd_concat_closing, ← htext,
      ofSimpleChars_simpleChars h]
  | pem => exact decode_encodePem h

end Secret

end DualSeal
