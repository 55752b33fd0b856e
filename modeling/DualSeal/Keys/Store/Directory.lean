import DualSeal.Keys.Store.Basic

/-!
# Key stores that are directories

Every text is a file of its own, directly in the store's directory and readable by its owner only.
Ids that could lead elsewhere are refused: letters, digits, underscores and dashes make an id.
-/

namespace DualSeal

/-- A character that an id in a directory may have. -/
def KeyId.isFileChar (c : Char) : Bool := c.isAlphanum || c = '_' || c = '-'

/-- What keeps an id from naming a file, if anything. -/
def KeyId.fileFault? (id : KeyId) : Option KeyIdFault :=
  if id.text = "" then some .empty
  else if id.text.toList.all isFileChar then none
  else some (.unsupported id)

def KeyKind.fileName (kind : KeyKind) (id : KeyId) : String :=
  id.text ++ "." ++ kind.word ++ ".pem"

def KeyKind.path (kind : KeyKind) (dir : Path) (id : KeyId) : Except KeyStoreError Path :=
  match id.fileFault? with
  | some fault => .error (.invalidKeyId fault)
  | none => .ok (dir.child (kind.fileName id))

def KeyStore.directory (dir : Path) : KeyStore FileTree where
  put kind id text tree := do
    let path ← kind.path dir id
    (tree.replace path (Utf8.encodeString text)).mapError .storage
  get kind id tree := do
    let path ← kind.path dir id
    (tree.readText path).mapError fun
      | .notFound => .notFound id
      | fault => .storage fault

/-- Creates the directory of a store, where it is missing. -/
def KeyStore.createDirectory (dir : Path) : ExceptT KeyStoreError (StateM FileTree) Unit :=
  (FileTree.createDirs dir).adapt .storage

end DualSeal
