/-!
# Lists of entries

A finite map as a list of pairs, of which the first under a key counts. What is put under a key is
all that is then found there, and nothing else changes.
-/

namespace DualSeal.Entries

variable {α β : Type} [DecidableEq α]

/-- The entries without those under a key. -/
def erase (entries : List (α × β)) (key : α) : List (α × β) :=
  entries.filter fun (other, _) ↦ other ≠ key

/-- The entries with a value under a key, in place of what may be there. -/
def insert (entries : List (α × β)) (key : α) (value : β) : List (α × β) :=
  (key, value) :: erase entries key

theorem erase_cons (key other : α) (value : β) (entries : List (α × β)) :
    erase ((other, value) :: entries) key =
      if other = key then erase entries key else (other, value) :: erase entries key := by
  by_cases same : other = key <;> simp [erase, same]

variable [BEq α] [LawfulBEq α]

theorem lookup_cons (key other : α) (value : β) (entries : List (α × β)) :
    ((key, value) :: entries).lookup other =
      if other = key then some value else entries.lookup other := by
  by_cases same : other = key
  · simp [same]
  · simp [List.lookup_cons, beq_eq_false_iff_ne.mpr same, same]

theorem lookup_erase (entries : List (α × β)) (key other : α) :
    (erase entries key).lookup other = if other = key then none else entries.lookup other := by
  induction entries with
  | nil => simp [erase]
  | cons head rest ih =>
    obtain ⟨found, value⟩ := head
    rw [erase_cons, lookup_cons]
    split <;> grind [lookup_cons]

theorem lookup_insert (entries : List (α × β)) (key other : α) (value : β) :
    (insert entries key value).lookup other =
      if other = key then some value else entries.lookup other := by
  grind [insert, lookup_cons, lookup_erase]

end DualSeal.Entries
