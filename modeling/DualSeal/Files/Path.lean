import DualSeal.Bytes

/-!
# Paths

A path is a text in which slashes separate names. A path keeps its text, since what it leads to
hangs on more than its names: two dots lead back from the directory that the names before them have
led to, and a slash or a dot at the end says that the last name is a directory's.
-/

namespace DualSeal

/-- A path to a file or a directory. -/
structure Path where
  text : String
  deriving DecidableEq, Repr

namespace Path

/-- The path of names that follow each other. -/
def ofNames (names : List String) : Path := ⟨"/".intercalate names⟩

/-- The parts that slashes separate. -/
def parts (path : Path) : List String := (path.text.toList.splitOn '/').map String.ofList

/-- Whether a part of a path leads somewhere: an empty part and a single dot stay where they are. -/
def isStep (part : String) : Bool := part ≠ "" && part ≠ "."

/-- The part that leads back to the directory above. -/
def back : String := ".."

/-- The names on the way, with the steps back among them. -/
def steps (path : Path) : List String := path.parts.filter isStep

/-- Whether a path starts at the root wherever it is used. -/
def isAbsolute (path : Path) : Bool := path.text.toList.head? = some '/'

def join (dir rest : Path) : Path :=
  if rest.isAbsolute then rest
  else if dir.text = "" ∨ dir.text.toList.getLast? = some '/' then ⟨dir.text ++ rest.text⟩
  else ⟨dir.text ++ "/" ++ rest.text⟩

/-- The path of a directory's file. -/
def child (dir : Path) (name : String) : Path := dir.join ⟨name⟩

/-- What a path has behind its last name. -/
inductive Ending where
  | none
  | slash
  /-- A single dot, perhaps with slashes behind it. -/
  | dot
  deriving DecidableEq, Repr

def ending (path : Path) : Ending :=
  match path.parts.reverse with
  | [] => .none
  | last :: before =>
    if last = "." ∨ (last = "" ∧ (before.dropWhile (· = "")).head? = some ".") then .dot
    else if last = "" then .slash
    else .none

def maxLength : Nat := 4095

/-- Whether a path can be looked up at all: it is short enough and has no NUL in it. -/
def isUsable (path : Path) : Bool :=
  path.text.utf8ByteSize ≤ maxLength && !path.text.toList.contains (Char.ofNat 0)

/-- The parts of a path that tell it from others: repeated slashes do not count, and dots only at
the front. An empty first part stands for the root. -/
def spelling (path : Path) : List String :=
  if path.text = "" then [] else path.parts.take 1 ++ (path.parts.drop 1).filter isStep

end Path

end DualSeal
