import DualSeal.Entries
import DualSeal.Files.Path
import DualSeal.Text.Utf8

/-!
# A tree of files

The part of a file system that stored keys and projects touch: files with contents and permission
bits, and directories, below a root that is always there. Every path starts at the root. Each
operation first walks to the directory above the path's last name, so that what is wrong with a path
is found at the first name that is at fault.
-/

namespace DualSeal

/-- The names of the directories from the root down to an entry, and its own. -/
abbrev Location := List String

/-- Why a file operation fails. -/
inductive FileFault where
  /-- The file, or a directory on the way to it, does not exist. -/
  | notFound
  /-- A file stands where the path needs a directory. -/
  | notDirectory
  /-- A directory stands where a file is wanted. -/
  | isDirectory
  /-- The path or a name in it is longer than it may be, or has a NUL in it. -/
  | badName
  /-- The contents are no text. -/
  | notText
  deriving DecidableEq, Repr

def FileFault.message : FileFault → String
  | .notFound => "no such file or directory"
  | .notDirectory => "not a directory"
  | .isDirectory => "is a directory"
  | .badName => "invalid file name"
  | .notText => "contents are not valid UTF-8"

/-- What a name stands for. -/
inductive FileEntry where
  | file (contents : Bytes) (mode : Nat)
  | directory
  deriving DecidableEq

/-- The files and directories below the root, by location. -/
structure FileTree where
  entries : List (Location × FileEntry)

namespace FileTree

/-- Only the root. -/
def empty : FileTree := ⟨[]⟩

def get? (tree : FileTree) (location : Location) : Option FileEntry :=
  if location = [] then some .directory else tree.entries.lookup location

/-- Puts an entry at a location, in place of the one that may be there. -/
def set (tree : FileTree) (location : Location) (entry : FileEntry) : FileTree :=
  ⟨Entries.insert tree.entries location entry⟩

theorem get?_set {tree : FileTree} {location : Location} (below : location ≠ []) (other : Location)
    (entry : FileEntry) :
    (tree.set location entry).get? other =
      if other = location then some entry else tree.get? other := by
  unfold get? set
  grind [Entries.lookup_insert]

def maxNameLength : Nat := 255

/-- Follows names from a directory on. Each must lead to a directory; the root is above itself. -/
def enter (tree : FileTree) (location : Location) : List String → Except FileFault Location
  | [] => .ok location
  | name :: names =>
    if name = Path.back then tree.enter location.dropLast names
    else if maxNameLength < name.utf8ByteSize then .error .badName
    else
      match tree.get? (location ++ [name]) with
      | none => .error .notFound
      | some (.file _ _) => .error .notDirectory
      | some .directory => tree.enter (location ++ [name]) names

/-- Where a path leads. All but its last name must lead to directories. -/
def locate (tree : FileTree) (path : Path) : Except FileFault Location := do
  if !path.isUsable then .error .badName
  else if path.text = "" then .error .notFound
  else
    let above ← tree.enter [] path.steps.dropLast
    match path.steps.getLast? with
    | none => return []
    | some name =>
      if name = Path.back then return above.dropLast
      else if maxNameLength < name.utf8ByteSize then .error .badName
      else return above ++ [name]

def read (tree : FileTree) (path : Path) : Except FileFault Bytes := do
  match tree.get? (← tree.locate path) with
  | none => .error .notFound
  | some .directory => .error .isDirectory
  | some (.file contents _) => if path.ending = .none then return contents else .error .notDirectory

/-- The contents of a file that is a text. -/
def readText (tree : FileTree) (path : Path) : Except FileFault String := do
  match Utf8.decodeString (← tree.read path) with
  | .ok text => return text
  | .error _ => .error .notText

/-- The permission bits of a new file. -/
def publicMode : Nat := 0o644

/-- The permission bits of a file that only its owner may read. -/
def privateMode : Nat := 0o600

/-- The location of a file that may be created or written over: nothing but a file may be there, and
the path must end with its name. -/
def locateFile (tree : FileTree) (path : Path) : Except FileFault Location := do
  let location ← tree.locate path
  match tree.get? location with
  | some .directory => .error .isDirectory
  | some (.file _ _) => if path.ending = .none then return location else .error .notDirectory
  | none => if path.ending = .none then return location else .error .notFound

/-- Writes a file, which keeps its permission bits when it exists. -/
def write (tree : FileTree) (path : Path) (contents : Bytes) : Except FileFault FileTree := do
  let location ← tree.locateFile path
  match tree.get? location with
  | some (.file _ mode) => return tree.set location (.file contents mode)
  | _ => return tree.set location (.file contents publicMode)

/-- Puts a finished file, which only its owner may read, in place of whatever file is at a path. The
directory must be there. -/
def replace (tree : FileTree) (path : Path) (contents : Bytes) : Except FileFault FileTree := do
  return tree.set (← tree.locateFile path) (.file contents privateMode)

/-- Creates a directory in one that is there, unless it exists. A path that ends in a dot creates
nothing. -/
def createDir (tree : FileTree) (path : Path) : Except FileFault FileTree := do
  let location ← tree.locate path
  match tree.get? location with
  | some .directory => return tree
  | some (.file _ _) => .error .notDirectory
  | none => if path.ending = .dot then .error .notFound else return tree.set location .directory

/-- A change of a tree. One that fails leaves what it has done before. -/
abbrev Change := ExceptT FileFault (StateM FileTree)

/-- The change that an operation makes, unless it fails. -/
def change (update : FileTree → Except FileFault FileTree) : Change Unit :=
  ExceptT.mk fun tree ↦
    match update tree with
    | .ok after => (.ok (), after)
    | .error fault => (.error fault, tree)

/-- Creates a directory, where it is missing, and before it each directory that its path passes
through, those from which it steps back included. -/
def createDirs (path : Path) : Change Unit := do
  if !path.isUsable then throw .badName
  else if path.text = "" then return
  else
    (List.range' 1 (path.steps.length - 1)).forM fun count ↦
      change (·.createDir (.ofNames (path.steps.take count)))
    change (·.createDir path)

/-- The names in a directory, in the order of their bytes. -/
def names (tree : FileTree) (dir : Location) : List String :=
  (tree.entries.filterMap fun (location, _) ↦
    match location.getLast? with
    | some name => if location.dropLast = dir then some name else none
    | none => none).mergeSort fun a b ↦ !decide (b < a)

def directoryMode : Nat := 0o755

/-- The permission bits of what a path leads to. -/
def mode? (tree : FileTree) (path : Path) : Option Nat :=
  match (tree.locate path).toOption.bind tree.get? with
  | some (.file _ mode) => if path.ending = .none then some mode else none
  | some .directory => some directoryMode
  | none => none

end FileTree

end DualSeal
