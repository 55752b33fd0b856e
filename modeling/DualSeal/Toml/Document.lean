import DualSeal.Toml.Statement

/-!
# TOML documents

A document is one table, which its statements build from the top. Every key is set once, every table
opened once, and arrays of tables grow at the end.
-/

namespace DualSeal.Toml

/-- Changes the table at the end of a way of headers. Tables that are missing are created; of an
array of tables the last one is meant. -/
def changeAt (change : Table → Option Table) : List String → Table → Option Table
  | [], table => change table
  | parent :: parents, table =>
    match table.lookup parent with
    | none => do
      let entries ← changeAt change parents []
      return table.put parent (.table .implied entries)
    | some (.table .inline _) => none
    | some (.table kind entries) => do
      let entries ← changeAt change parents entries
      return table.put parent (.table kind entries)
    | some (.tables items) => do
      let last ← changeAt change parents (items.getLastD [])
      return table.put parent (.tables (items.dropLast ++ [last]))
    | some _ => none

/-- Opens a table, which may have been passed before, but not opened. -/
def openTable (name : String) (table : Table) : Option Table :=
  match table.lookup name with
  | none => some (table.put name (.table .header []))
  | some (.table .implied entries) => some (table.put name (.table .header entries))
  | some _ => none

/-- Adds a table to an array of tables. -/
def openItem (name : String) (table : Table) : Option Table :=
  match table.lookup name with
  | none => some (table.put name (.tables [[]]))
  | some (.tables items) => some (table.put name (.tables (items ++ [[]])))
  | some _ => none

/-- A document under construction: the table so far, and the header that entries go to. -/
structure Draft where
  table : Table
  header : List String

/-- Carries out a statement. -/
def Draft.apply (draft : Draft) : Statement → Option Draft
  | .header key => do
    return ⟨← changeAt (openTable key.name) key.parents draft.table, key.parents ++ [key.name]⟩
  | .item key => do
    return ⟨← changeAt (openItem key.name) key.parents draft.table, key.parents ++ [key.name]⟩
  | .entry key value => do
    let table ← changeAt (addEntry key.name value true key.parents) draft.header draft.table
    return { draft with table }

/-- The mark that may stand in front of a text to tell how it is encoded. -/
def byteOrderMark : Char := Char.ofNat 0xFEFF

def ofText? (text : String) : Option Table := do
  let chars := text.toList
  let chars := if chars.head? = some byteOrderMark then chars.drop 1 else chars
  let statements ← readStatements? (chars.length + 1) chars
  let draft ← statements.foldlM Draft.apply ⟨[], []⟩
  return draft.table

end DualSeal.Toml
