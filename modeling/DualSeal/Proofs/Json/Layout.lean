import DualSeal.Proofs.Json.Strings
import DualSeal.Proofs.Outcome

/-!
# Parts between brackets

Lists and objects are written on one line or over several, and the reader passes over the blanks in
which the two ways differ. A `Layout` says which blanks they are. Every part begins with a quote, so
that it is never taken for a blank, a comma or a closing bracket (`next_parts`, `next_more`), and a
list is read back part by part, in any layout (`itemsWithin_parts`).
-/

namespace DualSeal.Json

/-! ## Blanks -/

/-- Nothing but blanks. -/
def IsBlanks (bytes : Bytes) : Prop := ∀ b ∈ bytes, isBlank b = true

theorem skipBlanks_append {blanks : Bytes} (h : IsBlanks blanks) (rest : Bytes) :
    skipBlanks (blanks ++ rest) = skipBlanks rest :=
  List.dropWhile_append_of_pos h

theorem expecting_append {α : Type} {blanks : Bytes} (h : IsBlanks blanks) (mark : UInt8)
    (read : Bytes → Except Fault α) (rest : Bytes) :
    expecting mark read (blanks ++ rest) = expecting mark read rest := by
  rw [expecting, skipBlanks_append h, expecting]

theorem expecting_cons {α : Type} {mark : UInt8} (hmark : isBlank mark = false)
    (read : Bytes → Except Fault α) (rest : Bytes) :
    expecting mark read (mark :: rest) = read rest := by
  rw [expecting, skipBlanks_cons hmark]
  exact if_pos rfl

/-- The blanks that set parts off: in front of each, behind the colon of a field, and behind the
last part. -/
structure Layout where
  lead : Bytes
  gap : Bytes
  tail : Bytes
  lead_blanks : IsBlanks lead
  gap_blanks : IsBlanks gap
  tail_blanks : IsBlanks tail

namespace Layout

/-- Everything on one line. -/
def compact : Layout :=
  ⟨[], [], [], List.forall_mem_nil _, List.forall_mem_nil _, List.forall_mem_nil _⟩

theorem isBlanks_indent (depth : Nat) : IsBlanks (Utf8.encode ('\n' :: indent depth)) := by
  intro b hb
  obtain ⟨c, hc, hb⟩ := List.mem_flatMap.mp hb
  rcases List.mem_cons.mp hc with rfl | hc
  · obtain rfl := List.mem_singleton.mp hb
    rfl
  · obtain rfl := List.eq_of_mem_replicate hc
    obtain rfl := List.mem_singleton.mp hb
    rfl

/-- Every part on a line of its own. -/
def indented (depth : Nat) : Layout :=
  ⟨Utf8.encode ('\n' :: indent (depth + 1)), [ascii ' '], Utf8.encode ('\n' :: indent depth),
    isBlanks_indent _, List.forall_mem_singleton.mpr rfl, isBlanks_indent _⟩

/-- Parts behind others, each behind a comma. -/
def more (layout : Layout) (parts : List Bytes) : Bytes :=
  parts.flatMap fun part ↦ ascii ',' :: (layout.lead ++ part)

/-- What stands between the brackets; they touch when there is no part. -/
def inside (layout : Layout) : List Bytes → Bytes
  | [] => []
  | first :: others => layout.lead ++ first ++ layout.more others ++ layout.tail

theorem more_cons (layout : Layout) (part : Bytes) (parts : List Bytes) (rest : Bytes) :
    layout.more (part :: parts) ++ rest
      = ascii ',' :: (layout.lead ++ (part ++ (layout.more parts ++ rest))) := by
  simp [more]

theorem inside_cons (layout : Layout) (part : Bytes) (parts : List Bytes) (rest : Bytes) :
    layout.inside (part :: parts) ++ rest
      = layout.lead ++ (part ++ (layout.more parts ++ (layout.tail ++ rest))) := by
  simp [inside]

def field (layout : Layout) (name : String) (value : Bytes) : Bytes :=
  Utf8.encode (textChars name) ++ ascii ':' :: (layout.gap ++ value)

end Layout

/-! ## What is written -/

theorem intercalate_cons_eq (separator first : List Char) (others : List (List Char)) :
    List.intercalate separator (first :: others)
      = first ++ others.flatMap fun part ↦ separator ++ part := by
  induction others generalizing first with
  | nil => simp
  | cons second others ih =>
    rw [List.intercalate_cons_cons, ih second, List.flatMap_cons]
    simp

theorem encode_ascii {c : Char} (hc : c.toNat < 0x80) (text : List Char) :
    Utf8.encode (c :: text) = ascii c :: Utf8.encode text := by
  rw [Utf8.encode_cons, Utf8.encodeChar_of_lt hc]
  rfl

theorem encode_nil : Utf8.encode [] = [] := rfl

theorem encode_flatMap {α : Type} (items : List α) (chars : α → List Char) :
    Utf8.encode (items.flatMap chars) = items.flatMap fun item ↦ Utf8.encode (chars item) :=
  List.flatMap_assoc

theorem encode_object (fields : List (String × List Char)) :
    Utf8.encode (object fields)
      = ascii '{' :: (Layout.compact.inside (fields.map fun (name, value) ↦
          Layout.compact.field name (Utf8.encode value)) ++ [ascii '}']) := by
  cases fields with
  | nil => rfl
  | cons first others =>
    rw [object, List.map_cons, intercalate_cons_eq]
    simp [Layout.inside, Layout.more, Layout.field, Layout.compact, List.flatMap_map, encode_nil,
      encode_ascii, encode_flatMap, Utf8.encode_append]

theorem encode_indented {opening closing : Char} (hopening : opening.toNat < 0x80)
    (hclosing : closing.toNat < 0x80) (depth : Nat) (parts : List (List Char)) :
    Utf8.encode (indented opening closing depth parts)
      = ascii opening ::
        ((Layout.indented depth).inside (parts.map Utf8.encode) ++ [ascii closing]) := by
  cases parts with
  | nil =>
    rw [indented, if_pos rfl, encode_ascii hopening, encode_ascii hclosing]
    rfl
  | cons first others =>
    rw [indented, if_neg (List.cons_ne_nil _ _), List.map_cons, intercalate_cons_eq]
    simp [Layout.inside, Layout.more, Layout.indented, List.flatMap_map, encode_nil, encode_ascii,
      encode_flatMap, Utf8.encode_append, hopening, hclosing]

theorem encode_indentedList (depth : Nat) (texts : List String) :
    Utf8.encode (indentedList depth (texts.map textChars))
      = ascii '[' :: ((Layout.indented depth).inside (texts.map fun text ↦
          Utf8.encode (textChars text)) ++ [ascii ']']) := by
  rw [indentedList, encode_indented (by decide) (by decide), List.map_map]
  rfl

theorem encode_indentedObject (depth : Nat) (fields : List (String × List Char)) :
    Utf8.encode (indentedObject depth fields)
      = ascii '{' :: ((Layout.indented depth).inside (fields.map fun (name, value) ↦
          (Layout.indented depth).field name (Utf8.encode value)) ++ [ascii '}']) := by
  rw [indentedObject, encode_indented (by decide) (by decide), List.map_map]
  simp [Function.comp_def, Layout.field, Layout.indented, encode_ascii, Utf8.encode_append]

/-! ## Reading on -/

/-- A byte that closes a list or an object. -/
def IsClosing (b : UInt8) : Prop := b = ascii ']' ∨ b = ascii '}'

theorem IsClosing.facts {b : UInt8} (h : IsClosing b) :
    isBlank b = false ∧ b ≠ ascii ',' ∧ b ≠ ascii '"' := by
  rcases h with rfl | rfl <;> decide

/-- The part begins with the quote of a string. -/
def IsQuoted (part : Bytes) : Prop := ∃ rest, part = ascii '"' :: rest

theorem isQuoted_textChars (text : String) : IsQuoted (Utf8.encode (textChars text)) := by
  rw [← List.append_nil (Utf8.encode (textChars text)), encode_textChars]
  exact ⟨_, rfl⟩

variable {closing : UInt8} {part : Bytes} {blanks : Bytes}

theorem next_closed (hclosing : IsClosing closing) (hblanks : IsBlanks blanks) (first : Bool)
    (rest : Bytes) : next closing first (blanks ++ closing :: rest) = .ok (.closed rest) := by
  rw [next, skipBlanks_append hblanks, skipBlanks_cons hclosing.facts.1]
  exact if_pos rfl

theorem next_first (hclosing : IsClosing closing) (hblanks : IsBlanks blanks)
    (hpart : IsQuoted part) (rest : Bytes) :
    next closing true (blanks ++ (part ++ rest)) = .ok (.item (part ++ rest)) := by
  obtain ⟨tail, rfl⟩ := hpart
  rw [next, skipBlanks_append hblanks, List.cons_append, skipBlanks_cons (by decide)]
  dsimp only
  rw [if_neg hclosing.facts.2.2.symm]
  exact if_pos rfl

theorem next_comma (hclosing : IsClosing closing) (hblanks : IsBlanks blanks)
    (hpart : IsQuoted part) (rest : Bytes) :
    next closing false (ascii ',' :: (blanks ++ (part ++ rest))) = .ok (.item (part ++ rest)) := by
  obtain ⟨tail, rfl⟩ := hpart
  rw [next, skipBlanks_cons (by decide)]
  dsimp only
  rw [if_neg hclosing.facts.2.1.symm, if_neg Bool.false_ne_true, if_pos rfl,
    skipBlanks_append hblanks, List.cons_append, skipBlanks_cons (by decide)]
  exact if_neg hclosing.facts.2.2.symm

theorem Layout.length_le_inside (layout : Layout) {parts : List Bytes}
    (hparts : ∀ part ∈ parts, IsQuoted part) : parts.length ≤ (layout.inside parts).length := by
  have hmore : ∀ parts : List Bytes, parts.length ≤ (layout.more parts).length := by
    intro parts
    induction parts with
    | nil => exact Nat.zero_le _
    | cons part parts ih =>
      rw [more, List.flatMap_cons, ← more, List.length_append, List.length_cons, List.length_cons]
      omega
  cases parts with
  | nil => exact Nat.zero_le _
  | cons part parts =>
    obtain ⟨tail, rfl⟩ := hparts part List.mem_cons_self
    have hlength := hmore parts
    rw [inside, List.length_append, List.length_append, List.length_append, List.length_cons,
      List.length_cons]
    omega

/-! ## Lists -/

section Items

variable {α : Type} {item : Bytes → Except Fault (α × Bytes)} {spell : α → Bytes} {fuel : Nat}
  (layout : Layout) {values : List α}

/-- **Items behind others.** -/
theorem itemsWithin_more (hclosing : IsClosing closing)
    (hvalues : ∀ value ∈ values, IsQuoted (spell value) ∧ Reads item value (spell value))
    (hfuel : values.length < fuel) (rest : Bytes) :
    itemsWithin closing item fuel false
        (layout.more (values.map spell) ++ (layout.tail ++ closing :: rest))
      = .ok (values, rest) := by
  induction values generalizing fuel with
  | nil =>
    obtain ⟨fuel, rfl⟩ := Nat.exists_eq_succ_of_ne_zero (Nat.ne_of_gt hfuel)
    rw [itemsWithin, List.map_nil, Layout.more, List.flatMap_nil, List.nil_append,
      next_closed hclosing layout.tail_blanks]
    rfl
  | cons value values ih =>
    obtain ⟨fuel, rfl⟩ := Nat.exists_eq_succ_of_ne_zero (Nat.ne_zero_of_lt hfuel)
    obtain ⟨⟨hquoted, hread⟩, hvalues⟩ := List.forall_mem_cons.mp hvalues
    rw [itemsWithin, List.map_cons, layout.more_cons,
      next_comma hclosing layout.lead_blanks hquoted, ok_bind]
    dsimp only
    rw [hread, ok_bind, ih hvalues (Nat.lt_of_succ_lt_succ hfuel)]
    rfl

/-- **Items.** What is between the brackets is read back item by item. -/
theorem itemsWithin_inside (hclosing : IsClosing closing)
    (hvalues : ∀ value ∈ values, IsQuoted (spell value) ∧ Reads item value (spell value))
    (hfuel : values.length < fuel) (rest : Bytes) :
    itemsWithin closing item fuel true
        (layout.inside (values.map spell) ++ closing :: rest) = .ok (values, rest) := by
  obtain ⟨fuel, rfl⟩ := Nat.exists_eq_succ_of_ne_zero (Nat.ne_zero_of_lt hfuel)
  cases values with
  | nil =>
    have hclosed := next_closed hclosing (List.forall_mem_nil _) true rest
    rw [List.nil_append] at hclosed
    rw [itemsWithin, List.map_nil, Layout.inside, List.nil_append, hclosed]
    rfl
  | cons value values =>
    obtain ⟨⟨hquoted, hread⟩, hvalues⟩ := List.forall_mem_cons.mp hvalues
    rw [itemsWithin, List.map_cons, layout.inside_cons,
      next_first hclosing layout.lead_blanks hquoted, ok_bind]
    dsimp only
    rw [hread, ok_bind, itemsWithin_more layout hclosing hvalues (Nat.lt_of_succ_lt_succ hfuel)]
    rfl

theorem reads_bracketed (layout : Layout) {opening : UInt8} (hopening : isBlank opening = false)
    (hclosing : IsClosing closing)
    (hvalues : ∀ value ∈ values, IsQuoted (spell value) ∧ Reads item value (spell value)) :
    Reads (expecting opening fun rest ↦ itemsWithin closing item (rest.length + 1) true rest) values
      (opening :: (layout.inside (values.map spell) ++ [closing])) := by
  intro rest
  have hparts : ∀ part ∈ values.map spell, IsQuoted part := by
    intro part hpart
    obtain ⟨value, hvalue, rfl⟩ := List.mem_map.mp hpart
    exact (hvalues value hvalue).1
  have hlength := layout.length_le_inside hparts
  rw [List.length_map] at hlength
  rw [List.cons_append, expecting_cons hopening, List.append_assoc, List.singleton_append]
  refine itemsWithin_inside layout hclosing hvalues ?_ rest
  rw [List.length_append]
  omega

end Items

/-- **Lists of strings.** -/
theorem reads_texts (layout : Layout) (values : List String) :
    Reads texts values (ascii '[' :: (layout.inside (values.map fun value ↦
      Utf8.encode (textChars value)) ++ [ascii ']'])) :=
  reads_bracketed layout (by decide) (.inl rfl) fun value _ ↦
    ⟨isQuoted_textChars value, reads_textChars value⟩

/-! ## Fields -/

theorem Layout.isQuoted_field (layout : Layout) (name : String) (value : Bytes) :
    IsQuoted (layout.field name value) := by
  obtain ⟨tail, htail⟩ := isQuoted_textChars name
  rw [field, htail]
  exact ⟨_, rfl⟩

theorem Layout.field_append (layout : Layout) (name : String) (value rest : Bytes) :
    layout.field name value ++ rest
      = ascii '"' :: (Utf8.encode (name.toList.flatMap escapeChar) ++
        ascii '"' :: ascii ':' :: (layout.gap ++ (value ++ rest))) := by
  rw [field, List.append_assoc, encode_textChars]
  simp

theorem reads_textField (layout : Layout) (entry : String × String) :
    Reads textField entry (layout.field entry.1 (Utf8.encode (textChars entry.2))) := by
  intro rest
  have hkey : key (layout.field entry.1 (Utf8.encode (textChars entry.2)) ++ rest)
      = .ok (entry.1, layout.gap ++ (Utf8.encode (textChars entry.2) ++ rest)) := by
    rw [layout.field_append, key]
    dsimp only
    rw [if_pos rfl, string_escaped_text, ok_bind]
    dsimp only
    rw [skipBlanks_cons (by decide)]
    exact if_pos rfl
  have htext : Json.text (layout.gap ++ (Utf8.encode (textChars entry.2) ++ rest))
      = .ok (entry.2, rest) := by
    rw [Json.text, expecting_append layout.gap_blanks]
    exact reads_textChars entry.2 rest
  rw [textField, hkey, ok_bind]
  dsimp only
  rw [htext]
  rfl

/-- **Tables of strings.** -/
theorem reads_table (layout : Layout) (entries : List (String × String)) :
    Reads table entries (ascii '{' :: (layout.inside (entries.map fun entry ↦
      layout.field entry.1 (Utf8.encode (textChars entry.2))) ++ [ascii '}'])) :=
  reads_bracketed layout (by decide) (.inr rfl) fun entry _ ↦
    ⟨layout.isQuoted_field _ _, reads_textField layout entry⟩

end DualSeal.Json
