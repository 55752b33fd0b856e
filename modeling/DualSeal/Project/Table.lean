import DualSeal.Entries

/-!
# Named texts

A finite map from names to texts, kept as a list of entries with strictly increasing names. The
order is that of code points, which is also that of the names' bytes, and two tables with the same
texts under the same names are equal (`NamedTexts.ext_get?`).
-/

namespace DualSeal

/-- Entries with increasing names. -/
abbrev NameSorted (entries : List (String × String)) : Prop :=
  entries.Pairwise fun a b ↦ a.1 < b.1

/-- Texts under names. -/
structure NamedTexts where
  entries : List (String × String)
  sorted : NameSorted entries
  deriving DecidableEq

namespace NamedTexts

/-- The entries with a text put under a name, in place of the one that may be there. -/
def insertEntry (name text : String) : List (String × String) → List (String × String)
  | [] => [(name, text)]
  | (other, old) :: rest =>
    if name < other then (name, text) :: (other, old) :: rest
    else if name = other then (name, text) :: rest
    else (other, old) :: insertEntry name text rest

theorem mem_insertEntry {name text : String} {entries : List (String × String)}
    {entry : String × String} (h : entry ∈ insertEntry name text entries) :
    entry = (name, text) ∨ entry ∈ entries := by
  induction entries with
  | nil => simpa [insertEntry] using h
  | cons head rest ih =>
    obtain ⟨other, old⟩ := head
    simp only [insertEntry] at h
    split at h
    · simpa using h
    · split at h
      · rcases List.mem_cons.mp h with h | h
        · exact .inl h
        · exact .inr (List.mem_cons_of_mem _ h)
      · rcases List.mem_cons.mp h with h | h
        · exact .inr (h ▸ List.mem_cons_self)
        · exact (ih h).imp_right (List.mem_cons_of_mem _)

theorem sorted_insertEntry {name text : String} {entries : List (String × String)}
    (h : NameSorted entries) : NameSorted (insertEntry name text entries) := by
  induction entries with
  | nil => simp [insertEntry]
  | cons head rest ih =>
    obtain ⟨other, old⟩ := head
    obtain ⟨least, sorted⟩ := List.pairwise_cons.mp h
    simp only [insertEntry]
    split
    · rename_i before
      refine List.pairwise_cons.mpr ⟨fun entry mem ↦ ?_, h⟩
      rcases List.mem_cons.mp mem with rfl | mem
      · exact before
      · exact String.lt_trans before (least _ mem)
    · split
      · rename_i same
        exact List.pairwise_cons.mpr ⟨fun entry mem ↦ same ▸ least _ mem, sorted⟩
      · rename_i notBefore different
        have after : other < name := by grind
        refine List.pairwise_cons.mpr ⟨fun entry mem ↦ ?_, ih sorted⟩
        rcases mem_insertEntry mem with rfl | mem
        · exact after
        · exact least _ mem

def empty : NamedTexts := ⟨[], .nil⟩

instance : Inhabited NamedTexts := ⟨empty⟩

def get? (table : NamedTexts) (name : String) : Option String := table.entries.lookup name

def insert (table : NamedTexts) (name text : String) : NamedTexts :=
  ⟨insertEntry name text table.entries, sorted_insertEntry table.sorted⟩

def erase (table : NamedTexts) (name : String) : NamedTexts :=
  ⟨Entries.erase table.entries name, table.sorted.filter _⟩

theorem lookup_insertEntry (name other text : String) (entries : List (String × String)) :
    (insertEntry name text entries).lookup other =
      if other = name then some text else entries.lookup other := by
  induction entries with
  | nil => simp [insertEntry, Entries.lookup_cons]
  | cons head rest ih =>
    obtain ⟨found, old⟩ := head
    simp only [insertEntry]
    split
    · exact Entries.lookup_cons name other text _
    · split <;> grind [Entries.lookup_cons]

@[simp] theorem get?_empty (name : String) : empty.get? name = none := rfl

theorem get?_insert (table : NamedTexts) (name other text : String) :
    (table.insert name text).get? other = if other = name then some text else table.get? other :=
  lookup_insertEntry name other text table.entries

theorem get?_erase (table : NamedTexts) (name other : String) :
    (table.erase name).get? other = if other = name then none else table.get? other :=
  Entries.lookup_erase table.entries name other

/-- A name below all names of a list has no text in it. -/
theorem lookup_of_below {name : String} {entries : List (String × String)}
    (below : ∀ entry ∈ entries, name < entry.1) : entries.lookup name = none := by
  refine List.lookup_eq_none_iff.mpr fun entry mem ↦ ?_
  have different : name ≠ entry.1 := fun same ↦ String.lt_irrefl _ (same ▸ below entry mem)
  exact bne_iff_ne.mpr different

/-- Of two sorted lists with the same texts, neither begins below the other. -/
theorem not_lt_head {name text first old : String} {left right : List (String × String)}
    (sorted : NameSorted ((first, old) :: right))
    (same : ∀ other, ((name, text) :: left).lookup other = ((first, old) :: right).lookup other) :
    ¬ name < first := by
  intro before
  have absent : ((first, old) :: right).lookup name = none := by
    refine lookup_of_below fun entry mem ↦ ?_
    rcases List.mem_cons.mp mem with rfl | mem
    · exact before
    · exact String.lt_trans before ((List.pairwise_cons.mp sorted).1 _ mem)
  have found := same name
  rw [absent, Entries.lookup_cons, if_pos rfl] at found
  cases found

theorem entries_ext {left right : List (String × String)} (sortedLeft : NameSorted left)
    (sortedRight : NameSorted right) (same : ∀ name, left.lookup name = right.lookup name) :
    left = right := by
  induction left generalizing right with
  | nil =>
    cases right with
    | nil => rfl
    | cons head tail =>
      obtain ⟨name, text⟩ := head
      simpa [Entries.lookup_cons] using same name
  | cons head tail ih =>
    obtain ⟨name, text⟩ := head
    cases right with
    | nil => simpa [Entries.lookup_cons] using same name
    | cons first rest =>
      obtain ⟨first, old⟩ := first
      have equal : name = first := by
        have := not_lt_head sortedRight same
        have := not_lt_head sortedLeft fun other ↦ (same other).symm
        grind
      subst equal
      have texts : text = old := by simpa [Entries.lookup_cons] using same name
      have tails : ∀ other, tail.lookup other = rest.lookup other := by
        intro other
        by_cases h : other = name
        · rw [h, lookup_of_below (List.pairwise_cons.mp sortedLeft).1,
            lookup_of_below (List.pairwise_cons.mp sortedRight).1]
        · simpa [Entries.lookup_cons, h] using same other
      rw [texts,
        ih (List.pairwise_cons.mp sortedLeft).2 (List.pairwise_cons.mp sortedRight).2 tails]

/-- A table is determined by the texts under the names. -/
theorem ext_get? {left right : NamedTexts} (same : ∀ name, left.get? name = right.get? name) :
    left = right := by
  obtain ⟨left, sortedLeft⟩ := left
  obtain ⟨right, sortedRight⟩ := right
  obtain rfl : left = right := entries_ext sortedLeft sortedRight same
  rfl

def names (table : NamedTexts) : List String := table.entries.map Prod.fst

/-- The table of a list of entries, of which the last under a name counts. -/
def ofList (entries : List (String × String)) : NamedTexts :=
  entries.foldl (fun table (name, text) ↦ table.insert name text) empty

end NamedTexts

end DualSeal
