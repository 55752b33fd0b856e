import DualSeal.Project.Document
import DualSeal.Proofs.Json.Record

/-!
# Project documents are read back

A document is an object over several lines, with lists and a table inside it that are written in the
same way one level deeper. All of them are read back in that layout, and the secrets come in the
order of their names, so that the table that is built from them is the one that was written
(`ofDocument_document`). No field has to be as an operation would leave it.
-/

namespace DualSeal

/-! ## Tables -/

namespace NamedTexts

theorem insertEntry_of_above {name text : String} {entries : List (String × String)}
    (above : ∀ entry ∈ entries, entry.1 < name) :
    insertEntry name text entries = entries ++ [(name, text)] := by
  induction entries with
  | nil => rfl
  | cons entry entries ih =>
    obtain ⟨hentry, hentries⟩ := List.forall_mem_cons.mp above
    have hne : name ≠ entry.1 := fun heq ↦ String.lt_irrefl _ (heq ▸ hentry)
    rw [insertEntry, if_neg (String.lt_asymm hentry), if_neg hne, ih hentries, List.cons_append]

/-- Entries with increasing names are put behind each other. -/
theorem entries_foldl_insert {table : NamedTexts} {entries : List (String × String)}
    (sorted : NameSorted (table.entries ++ entries)) :
    (entries.foldl (fun table (name, text) ↦ table.insert name text) table).entries
      = table.entries ++ entries := by
  induction entries generalizing table with
  | nil => exact (List.append_nil _).symm
  | cons entry entries ih =>
    have habove : ∀ other ∈ table.entries, other.1 < entry.1 := fun other hother ↦
      (List.pairwise_append.mp sorted).2.2 other hother entry List.mem_cons_self
    have hinsert : (table.insert entry.1 entry.2).entries = table.entries ++ [entry] :=
      insertEntry_of_above habove
    have hsplit : table.entries ++ [entry] ++ entries = table.entries ++ entry :: entries := by
      rw [List.append_assoc, List.singleton_append]
    rw [List.foldl_cons, ih, hinsert, hsplit]
    rw [hinsert, hsplit]
    exact sorted

theorem ofList_entries (table : NamedTexts) : ofList table.entries = table := by
  have hentries : (ofList table.entries).entries = table.entries :=
    @entries_foldl_insert .empty table.entries table.sorted
  exact ext_get? fun name ↦ by rw [get?, get?, hentries]

end NamedTexts

/-! ## Documents -/

namespace Project

open Json

/-- The fields with their values, as they are written. -/
def written (project : Project) : List Written :=
  let ids (ids : List KeyId) : List String := ids.map KeyId.text
  [⟨.required "shared_key_id", .text project.sharedKeyId.text, _, Shape.reads_text _⟩,
    ⟨⟨"member_key_ids", .texts, some (.texts [])⟩, .texts (ids project.memberKeyIds), _,
      Shape.reads_texts (.indented 1) _⟩,
    ⟨⟨"service_key_ids", .texts, some (.texts [])⟩, .texts (ids project.serviceKeyIds), _,
      Shape.reads_texts (.indented 1) _⟩,
    ⟨⟨"secrets", .table, some (.table [])⟩, .table project.secrets.entries, _,
      Shape.reads_table (.indented 1) _⟩]

theorem encode_idsDocument (ids : List KeyId) :
    Utf8.encode (idsDocument ids)
      = ascii '[' :: ((Layout.indented 1).inside ((ids.map KeyId.text).map fun id ↦
          Utf8.encode (textChars id)) ++ [ascii ']']) := by
  have hids : ids.map (fun id ↦ textChars id.text) = (ids.map KeyId.text).map textChars := by
    rw [List.map_map]
    rfl
  rw [idsDocument, hids, encode_indentedList]

theorem encode_document (project : Project) :
    Utf8.encode project.document
      = ascii '{' :: ((Layout.indented 0).inside (project.written.map (Written.part (.indented 0)))
        ++ [ascii '}']) := by
  have hsecrets : Utf8.encode (indentedObject 1 (project.secrets.entries.map fun (name, text) ↦
        (name, textChars text)))
      = ascii '{' :: ((Layout.indented 1).inside (project.secrets.entries.map fun entry ↦
          (Layout.indented 1).field entry.1 (Utf8.encode (textChars entry.2))) ++ [ascii '}']) := by
    rw [encode_indentedObject, List.map_map]
    rfl
  rw [document, encode_indentedObject]
  simp only [List.map_cons, List.map_nil, encode_idsDocument, hsecrets]
  rfl

/-- **Documents.** Reading a project's document gives the project. -/
theorem ofDocument_document (project : Project) :
    ofDocument (Utf8.encode project.document) = .ok project := by
  have hnames : (project.written.map fun one ↦ one.field.name).Nodup := by
    change ["shared_key_id", "member_key_ids", "service_key_ids", "secrets"].Nodup
    decide
  have hfields : fields = project.written.map Written.field := rfl
  have hids : ∀ ids : List KeyId, (ids.map KeyId.text).map KeyId.mk = ids := fun ids ↦ by
    rw [List.map_map]
    exact List.map_id ids
  rw [ofDocument, encode_document, hfields, readRecord_inside _ hnames, ok_bind]
  change Except.ok (Project.mk project.sharedKeyId
    ((project.memberKeyIds.map KeyId.text).map KeyId.mk)
    ((project.serviceKeyIds.map KeyId.text).map KeyId.mk) (.ofList project.secrets.entries)) = _
  rw [hids, hids, NamedTexts.ofList_entries]

end Project

end DualSeal
