import DualSeal.Entries
import DualSeal.Json.Record
import DualSeal.Proofs.Json.Layout
import Mathlib.Data.List.Nodup

/-!
# Records are read back

What is written as an object is read back as the values of its fields, in any layout
(`readRecord_inside`); so it is with an object of strings on one line (`readRecord_writeRecord`).

The reader of an object works through the text with the fields found so far at hand, the writer
joins all fields at once. They meet in `objectFields_more`, which says what written fields do to the
reader, and which follows from what one of them does by induction on the fields.
-/

namespace DualSeal.Json

/-! ## Fields -/

theorem Shape.read_append {blanks : Bytes} (h : IsBlanks blanks) (shape : Shape) (input : Bytes) :
    shape.read (blanks ++ input) = shape.read input := by
  cases shape with
  | text => rw [read, read, Json.text, Json.text, expecting_append h]
  | texts => rw [read, read, Json.texts, Json.texts, expecting_append h]
  | table => rw [read, read, Json.table, Json.table, expecting_append h]

theorem Shape.reads_text (value : String) :
    Reads Shape.text.read (.text value) (Utf8.encode (textChars value)) := by
  intro rest
  rw [read, reads_textChars]
  rfl

theorem Shape.reads_texts (layout : Layout) (values : List String) :
    Reads Shape.texts.read (.texts values) (ascii '[' :: (layout.inside (values.map fun value ↦
      Utf8.encode (textChars value)) ++ [ascii ']'])) := by
  intro rest
  rw [read, Json.reads_texts]
  rfl

theorem Shape.reads_table (layout : Layout) (entries : List (String × String)) :
    Reads Shape.table.read (.table entries) (ascii '{' :: (layout.inside (entries.map fun entry ↦
      layout.field entry.1 (Utf8.encode (textChars entry.2))) ++ [ascii '}'])) := by
  intro rest
  rw [read, Json.reads_table]
  rfl

/-- A field and its value, in bytes that are read as this value. -/
structure Written where
  field : Field
  value : Value
  bytes : Bytes
  reads : Reads field.shape.read value bytes

/-- The whole field. -/
def Written.part (layout : Layout) (written : Written) : Bytes :=
  layout.field written.field.name written.bytes

theorem Written.isQuoted_part (layout : Layout) (written : Written) :
    IsQuoted (written.part layout) :=
  layout.isQuoted_field _ _

theorem fieldName_part (layout : Layout) (written : Written) (rest : Bytes) :
    objectFields.fieldName (written.part layout ++ rest)
      = .ok (written.field.name, ascii ':' :: (layout.gap ++ (written.bytes ++ rest))) := by
  rw [Written.part, layout.field_append, objectFields.fieldName]
  exact (if_pos rfl).trans (string_escaped_text written.field.name _)

theorem colon_cons (rest : Bytes) : objectFields.colon (ascii ':' :: rest) = .ok rest := by
  rw [objectFields.colon, skipBlanks_cons (by decide)]
  exact if_pos rfl

section

variable (layout : Layout) {fields : List Field} {fuel : Nat} {found : List (String × Value)}
  {written : Written} {others : List Written}

/-- **One field.** Where a written field is next that is one of the fields and has not been found,
it is found, and reading goes on behind it. -/
theorem objectFields_part {first : Bool} {input rest : Bytes}
    (hnext : next (ascii '}') first input = .ok (.item (written.part layout ++ rest)))
    (hfield : fields.find? (·.name = written.field.name) = some written.field)
    (hnew : found.lookup written.field.name = none) :
    objectFields fields (fuel + 1) found first input
      = objectFields fields fuel ((written.field.name, written.value) :: found) false rest := by
  rw [objectFields, hnext, ok_bind]
  dsimp only
  rw [fieldName_part, ok_bind]
  dsimp only
  rw [hfield]
  dsimp only
  rw [hnew, colon_cons, ok_bind, Shape.read_append layout.gap_blanks, written.reads]
  rfl

/-! ## Objects -/

/-- The fields that are found once written ones have been read as well. -/
def foundWith (found : List (String × Value)) (written : List Written) : List (String × Value) :=
  (written.map fun one ↦ (one.field.name, one.value)).reverse ++ found

theorem foundWith_cons (found : List (String × Value)) (written : Written) (others : List Written) :
    foundWith found (written :: others)
      = foundWith ((written.field.name, written.value) :: found) others := by
  rw [foundWith, foundWith, List.map_cons, List.reverse_cons, List.append_assoc]
  rfl

theorem lookup_eq_none_of_fresh
    (hfresh : written.field.name ∉ others.map fun other ↦ other.field.name)
    (hnew : ∀ other ∈ others, found.lookup other.field.name = none) : ∀ other ∈ others,
      ((written.field.name, written.value) :: found).lookup other.field.name = none := by
  intro other hother
  have hne : other.field.name ≠ written.field.name := by
    intro heq
    exact hfresh (heq ▸ List.mem_map_of_mem hother)
  rw [Entries.lookup_cons, if_neg hne]
  exact hnew other hother

/-- **Fields up to the end.** Where written fields are next, each of them one of the fields and none
of them found before, all are found, and reading ends with the bracket behind them. -/
theorem objectFields_more (rest : Bytes)
    (hfields : ∀ other ∈ others, fields.find? (·.name = other.field.name) = some other.field)
    (hnodup : (others.map fun other ↦ other.field.name).Nodup)
    (hnew : ∀ other ∈ others, found.lookup other.field.name = none)
    (hfuel : others.length < fuel) :
    objectFields fields fuel found false
        (layout.more (others.map (Written.part layout)) ++ (layout.tail ++ ascii '}' :: rest))
      = (·, rest) <$> complete fields (foundWith found others) := by
  induction others generalizing fuel found with
  | nil =>
    obtain ⟨fuel, rfl⟩ := Nat.exists_eq_succ_of_ne_zero (Nat.ne_of_gt hfuel)
    rw [List.map_nil, Layout.more, List.flatMap_nil, List.nil_append, objectFields,
      next_closed (.inr rfl) layout.tail_blanks, ok_bind]
    dsimp only
    rw [map_eq_pure_bind]
    rfl
  | cons written others ih =>
    obtain ⟨fuel, rfl⟩ := Nat.exists_eq_succ_of_ne_zero (Nat.ne_zero_of_lt hfuel)
    obtain ⟨hfield, hfields⟩ := List.forall_mem_cons.mp hfields
    obtain ⟨hwritten, hnew⟩ := List.forall_mem_cons.mp hnew
    obtain ⟨hfresh, hnodup⟩ := List.nodup_cons.mp hnodup
    have hnext := next_comma (.inr rfl) layout.lead_blanks (written.isQuoted_part layout)
      (layout.more (others.map (Written.part layout)) ++ (layout.tail ++ ascii '}' :: rest))
    -- The field is found from here on, and its name is not among the other ones.
    rw [List.map_cons, layout.more_cons, objectFields_part layout hnext hfield hwritten,
      ih hfields hnodup (lookup_eq_none_of_fresh hfresh hnew) (Nat.lt_of_succ_lt_succ hfuel),
      foundWith_cons]

theorem lookup_of_mem {pairs : List (String × Value)} (hnodup : (pairs.map Prod.fst).Nodup)
    {name : String} {value : Value} (h : (name, value) ∈ pairs) :
    pairs.lookup name = some value := by
  induction pairs with
  | nil => cases h
  | cons pair pairs ih =>
    obtain ⟨hfresh, hnodup⟩ := List.nodup_cons.mp hnodup
    rw [Entries.lookup_cons]
    rcases List.mem_cons.mp h with rfl | h
    · exact if_pos rfl
    · have hne : name ≠ pair.1 := by
        rintro rfl
        exact hfresh (List.mem_map.mpr ⟨_, h, rfl⟩)
      rw [if_neg hne, ih hnodup h]

theorem complete_foundWith (hnodup : (others.map fun other ↦ other.field.name).Nodup) :
    complete (others.map Written.field) (foundWith [] others)
      = .ok (others.map Written.value) := by
  have hnames : ((foundWith [] others).map Prod.fst).Nodup := by
    rw [foundWith, List.append_nil, List.map_reverse, List.map_map, List.nodup_reverse]
    exact hnodup
  rw [complete, mapM_eq_ok_iff, List.forall₂_map_left_iff, List.forall₂_map_right_iff,
    List.forall₂_same]
  intro other hother
  have hmem : (other.field.name, other.value) ∈ foundWith [] others := by
    rw [foundWith, List.append_nil, List.mem_reverse]
    exact List.mem_map_of_mem hother
  rw [lookup_of_mem hnames hmem]

theorem find?_name (hnodup : (others.map fun other ↦ other.field.name).Nodup)
    (h : written ∈ others) :
    (others.map Written.field).find? (·.name = written.field.name) = some written.field := by
  induction others with
  | nil => cases h
  | cons other others ih =>
    obtain ⟨hfresh, hnodup⟩ := List.nodup_cons.mp hnodup
    rcases List.mem_cons.mp h with rfl | h
    · exact List.find?_cons_of_pos (decide_eq_true rfl)
    · have hne : other.field.name ≠ written.field.name := by
        intro heq
        exact hfresh (List.mem_map.mpr ⟨written, h, heq.symm⟩)
      rw [List.map_cons, List.find?_cons_of_neg (by simpa using hne), ih hnodup h]

/-- **Objects.** All the fields between the brackets are read back. -/
theorem objectFields_inside (hnodup : (others.map fun other ↦ other.field.name).Nodup)
    (hfuel : others.length < fuel) (rest : Bytes) :
    objectFields (others.map Written.field) fuel [] true
        (layout.inside (others.map (Written.part layout)) ++ ascii '}' :: rest)
      = .ok (others.map Written.value, rest) := by
  obtain ⟨fuel, rfl⟩ := Nat.exists_eq_succ_of_ne_zero (Nat.ne_zero_of_lt hfuel)
  cases others with
  | nil =>
    have hclosed := next_closed (.inr rfl) (List.forall_mem_nil _) true rest
    rw [List.nil_append] at hclosed
    rw [objectFields, List.map_nil, List.map_nil, Layout.inside, List.nil_append, hclosed]
    rfl
  | cons written others =>
    have hfind := fun other hother ↦ @find?_name other (written :: others) hnodup hother
    have hcomplete := complete_foundWith hnodup
    obtain ⟨hfresh, hrest⟩ := List.nodup_cons.mp hnodup
    have hnext := next_first (.inr rfl) layout.lead_blanks (written.isQuoted_part layout)
      (layout.more (others.map (Written.part layout)) ++ (layout.tail ++ ascii '}' :: rest))
    have hparts : (written :: others).map (Written.part layout)
      = written.part layout :: others.map (Written.part layout) := rfl
    rw [hparts, layout.inside_cons,
      objectFields_part layout hnext (hfind written List.mem_cons_self) rfl,
      objectFields_more layout rest (fun other h ↦ hfind other (List.mem_cons_of_mem _ h)) hrest
        (lookup_eq_none_of_fresh hfresh fun _ _ ↦ rfl) (Nat.lt_of_succ_lt_succ hfuel),
      ← foundWith_cons, hcomplete]
    rfl

/-- **Records.** A record with different field names is read back from its object, in any layout. -/
theorem readRecord_inside (hnodup : (others.map fun other ↦ other.field.name).Nodup) :
    readRecord (others.map Written.field)
        (ascii '{' :: (layout.inside (others.map (Written.part layout)) ++ [ascii '}']))
      = .ok (others.map Written.value) := by
  -- Every field takes a byte at least, so the fuel lasts.
  have hparts : ∀ part ∈ others.map (Written.part layout), IsQuoted part := by
    intro part hpart
    obtain ⟨other, -, rfl⟩ := List.mem_map.mp hpart
    exact other.isQuoted_part layout
  have hlength := layout.length_le_inside hparts
  rw [List.length_map] at hlength
  have hfuel : others.length
      < (layout.inside (others.map (Written.part layout)) ++ [ascii '}']).length + 1 := by
    rw [List.length_append]
    omega
  rw [readRecord, record, skipBlanks_cons (by decide)]
  dsimp only
  rw [if_neg (by decide), if_pos rfl, objectFields_inside layout hnodup hfuel]
  rfl

end

/-- A string field that must be there, with its value. -/
def Written.required (entry : String × String) : Written :=
  ⟨.required entry.1, .text entry.2, Utf8.encode (textChars entry.2), Shape.reads_text entry.2⟩

/-- A record of strings with different names is read back from its document. -/
theorem readRecord_writeRecord (entries : List (String × String))
    (hnodup : (entries.map Prod.fst).Nodup) :
    readRecord (entries.map fun entry ↦ .required entry.1)
        (Utf8.encodeString (writeRecord entries))
      = .ok (entries.map fun entry ↦ .text entry.2) := by
  have hdocument : Utf8.encodeString (writeRecord entries)
      = ascii '{' :: (Layout.compact.inside
        ((entries.map Written.required).map (Written.part .compact)) ++ [ascii '}']) := by
    rw [Utf8.encodeString, writeRecord, String.toList_ofList, encode_object, List.map_map,
      List.map_map]
    rfl
  have hnames : ((entries.map Written.required).map fun other ↦ other.field.name).Nodup := by
    rw [List.map_map]
    exact hnodup
  have hfields : entries.map (fun entry ↦ Field.required entry.1)
      = (entries.map Written.required).map Written.field := by
    rw [List.map_map]
    rfl
  rw [hfields, hdocument, readRecord_inside .compact hnames, List.map_map]
  rfl

end DualSeal.Json
