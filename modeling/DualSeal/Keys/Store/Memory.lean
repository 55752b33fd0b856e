import DualSeal.Entries
import DualSeal.Keys.Store.Basic

/-!
# Key stores that are tables

Two stores that take every id: one keeps the texts under kind and id, the other under a single name
made of both, as a database of plain strings would.
-/

namespace DualSeal

/-- A table from keys of type `α` to texts. -/
structure TextTable (α : Type) where
  entries : List (α × String)

namespace TextTable

variable {α : Type} [DecidableEq α]

def empty : TextTable α := ⟨[]⟩

def get? (table : TextTable α) (key : α) : Option String := table.entries.lookup key

/-- Puts a text under a key, in place of the one that may be there. -/
def insert (table : TextTable α) (key : α) (text : String) : TextTable α :=
  ⟨Entries.insert table.entries key text⟩

@[simp] theorem get?_empty (key : α) : (empty : TextTable α).get? key = none := rfl

theorem get?_insert (table : TextTable α) (key other : α) (text : String) :
    (table.insert key text).get? other = if other = key then some text else table.get? other :=
  Entries.lookup_insert table.entries key other text

end TextTable

/-- The store that keeps texts under kind and id. -/
def KeyStore.memory : KeyStore (TextTable (KeyKind × KeyId)) where
  put kind id text table := .ok (table.insert (kind, id) text)
  get kind id table :=
    match table.get? (kind, id) with
    | some text => .ok text
    | none => .error (.notFound id)

/-- The name of a key in a table of strings. -/
def KeyKind.tableName (kind : KeyKind) (id : KeyId) : String := kind.word ++ ":" ++ id.text

/-- The store that keeps texts under names. -/
def KeyStore.named : KeyStore (TextTable String) where
  put kind id text table := .ok (table.insert (kind.tableName id) text)
  get kind id table :=
    match table.get? (kind.tableName id) with
    | some text => .ok text
    | none => .error (.notFound id)

end DualSeal
