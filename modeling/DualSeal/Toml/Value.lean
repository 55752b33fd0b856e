/-!
# TOML values

A table remembers how it came about, because that decides what may be added to it: a table in braces
is complete, a header may add subtables but its keys come once, and tables that were only passed on
the way to others can still be opened.
-/

namespace DualSeal.Toml

/-- How a table came about. -/
inductive TableKind where
  /-- Written in braces. -/
  | inline
  /-- Opened by a header. -/
  | header
  /-- Passed on the way of a dotted key. -/
  | dotted
  /-- Passed on the way of a header. -/
  | implied
  deriving DecidableEq, Repr

/-- A TOML value. Numbers that are no integers, dates and times are kept as they are written. -/
inductive Value where
  | text (value : String)
  | integer (value : Int)
  | real (written : String)
  | truth (value : Bool)
  | time (written : String)
  | list (items : List Value)
  | table (kind : TableKind) (entries : List (String × Value))
  /-- An array of tables, each opened by a header. -/
  | tables (items : List (List (String × Value)))

/-- The entries of a table. -/
abbrev Table := List (String × Value)

end DualSeal.Toml
