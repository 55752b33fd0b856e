import DualSeal.Proofs.Toml.Statement
import DualSeal.Toml.Document
import Mathlib.Data.List.Nodup

/-!
# TOML documents with tables

A document with a header for each of its tables, and entries below it, is read as these tables, when
no name comes twice (`ofText?_of_readsAs`): each statement adds its part behind what was there
(`apply_header`, `apply_entry`).
-/

namespace DualSeal.Toml

variable {name key : String} {table entries : Table} {old value : Value} {text : List Char}

/-- What the line of an entry says. -/
def entryStatement (entry : String × Value) : Statement := .entry ⟨[], entry.1⟩ entry.2

/-- What the lines of a table say. -/
def tableStatements (table : String × Table) : List Statement :=
  .header ⟨[], table.1⟩ :: table.2.map entryStatement

/-- A table that a header opened. -/
def headed (table : String × Table) : String × Value := (table.1, .table .header table.2)

/-! ## The last entry of a table -/

theorem lookup_eq_none_of_nodup {names : List String}
    (h : (table.map Prod.fst ++ name :: names).Nodup) : table.lookup name = none := by
  refine List.lookup_eq_none_iff.mpr fun entry hentry ↦ ?_
  have hne : entry.1 ≠ name :=
    (List.nodup_append.mp h).2.2 _ (List.mem_map_of_mem hentry) _ List.mem_cons_self
  simpa using hne.symm

theorem put_of_lookup (h : table.lookup name = none) :
    table.put name value = table ++ [(name, value)] := by
  rw [Table.put, h]
  rfl

theorem lookup_append_self (h : table.lookup name = none) :
    (table ++ [(name, value)]).lookup name = some value := by
  rw [List.lookup_append, h, List.lookup_cons_self]
  rfl

theorem put_append_self (h : table.lookup name = none) :
    Table.put (table ++ [(name, old)]) name value = table ++ [(name, value)] := by
  have hothers : ∀ entry ∈ table, entry.1 ≠ name := fun entry hentry hname ↦ by
    have hne := List.lookup_eq_none_iff.mp h entry hentry
    simp [hname] at hne
  rw [Table.put, lookup_append_self h, if_pos (by rfl), List.map_append]
  refine congrArg₂ (· ++ ·) ?_ (by simp)
  refine (List.map_congr_left fun entry hentry ↦ ?_).trans (List.map_id' table)
  exact if_neg (hothers entry hentry)

/-! ## Carrying out statements -/

theorem apply_header {draft : Draft} (h : draft.table.lookup name = none) :
    draft.apply (.header ⟨[], name⟩)
      = some ⟨draft.table ++ [(name, .table .header [])], [name]⟩ := by
  have hopen : openTable name draft.table = some (draft.table ++ [(name, .table .header [])]) := by
    rw [openTable, h, put_of_lookup h]
  simp [Draft.apply, changeAt, hopen]

theorem apply_entry (htable : table.lookup name = none) (hentries : entries.lookup key = none) :
    Draft.apply ⟨table ++ [(name, .table .header entries)], [name]⟩ (.entry ⟨[], key⟩ value)
      = some ⟨table ++ [(name, .table .header (entries ++ [(key, value)]))], [name]⟩ := by
  have hadd : addEntry key value true [] entries = some (entries ++ [(key, value)]) := by
    rw [addEntry, hentries]
    rfl
  have hchange : changeAt (addEntry key value true []) [name]
      (table ++ [(name, .table .header entries)])
        = some (table ++ [(name, .table .header (entries ++ [(key, value)]))]) := by
    rw [changeAt, lookup_append_self htable]
    simp [changeAt, hadd, put_append_self htable]
  simp [Draft.apply, hchange]

theorem foldlM_entries {done : Table} (htable : table.lookup name = none)
    (hnodup : (done.map Prod.fst ++ entries.map Prod.fst).Nodup) :
    (entries.map entryStatement).foldlM Draft.apply
        ⟨table ++ [(name, .table .header done)], [name]⟩
      = some ⟨table ++ [(name, .table .header (done ++ entries))], [name]⟩ := by
  induction entries generalizing done with
  | nil => rw [List.append_nil, List.map_nil, List.foldlM_nil]; rfl
  | cons entry entries ih =>
    have hfresh : done.lookup entry.1 = none := lookup_eq_none_of_nodup hnodup
    have hrest : ((done ++ [entry]).map Prod.fst ++ entries.map Prod.fst).Nodup := by
      rwa [List.map_append, List.append_assoc]
    have hsplit : done ++ entry :: entries = done ++ [entry] ++ entries := by
      rw [List.append_assoc, List.singleton_append]
    rw [hsplit, List.map_cons, List.foldlM_cons, entryStatement, apply_entry htable hfresh]
    exact ih hrest

/-- **One table.** Its lines add it behind the others. -/
theorem foldlM_table {draft : Draft} (hname : draft.table.lookup name = none)
    (hnodup : (entries.map Prod.fst).Nodup) :
    (tableStatements (name, entries)).foldlM Draft.apply draft
      = some ⟨draft.table ++ [(name, .table .header entries)], [name]⟩ := by
  rw [tableStatements, List.foldlM_cons, apply_header hname]
  exact foldlM_entries hname hnodup

theorem foldlM_tables {draft : Draft} {tables : List (String × Table)}
    (hnames : (draft.table.map Prod.fst ++ tables.map Prod.fst).Nodup)
    (hentries : ∀ table ∈ tables, (table.2.map Prod.fst).Nodup) :
    ∃ after, (tables.flatMap tableStatements).foldlM Draft.apply draft = some after ∧
      after.table = draft.table ++ tables.map headed := by
  induction tables generalizing draft with
  | nil => exact ⟨draft, rfl, (List.append_nil _).symm⟩
  | cons table tables ih =>
    set next : Draft := ⟨draft.table ++ [(table.1, .table .header table.2)], [table.1]⟩ with hnext
    have hrest : (next.table.map Prod.fst ++ tables.map Prod.fst).Nodup := by
      rwa [hnext, List.map_append, List.append_assoc]
    obtain ⟨after, hfold, hafter⟩ := ih hrest fun other hother ↦
      hentries other (List.mem_cons_of_mem _ hother)
    refine ⟨after, ?_, ?_⟩
    · rw [List.flatMap_cons, List.foldlM_append, foldlM_table (lookup_eq_none_of_nodup hnames)
        (hentries table List.mem_cons_self)]
      exact hfold
    · rw [hafter, hnext, List.append_assoc, List.map_cons]
      rfl

/-- **Documents.** What the lines of tables say is read as these tables. -/
theorem ofText?_of_readsAs {tables : List (String × Table)}
    (hreads : ReadsAs text (tables.flatMap tableStatements))
    (hmark : text.head? ≠ some byteOrderMark) (hnames : (tables.map Prod.fst).Nodup)
    (hentries : ∀ table ∈ tables, (table.2.map Prod.fst).Nodup) :
    ofText? (String.ofList text) = some (tables.map headed) := by
  have hempty : ((⟨[], []⟩ : Draft).table.map Prod.fst ++ tables.map Prod.fst).Nodup := hnames
  obtain ⟨after, hfold, hafter⟩ := foldlM_tables hempty hentries
  rw [ofText?, String.toList_ofList, if_neg hmark]
  simp [hreads _ (Nat.lt_succ_self _), hfold, hafter]

end DualSeal.Toml
