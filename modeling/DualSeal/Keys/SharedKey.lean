import DualSeal.Keys.Cache
import DualSeal.Text.Blank

/-!
# The shared key of a server

A server keeps one shared key for good. A marker file in its key directory records the key's id;
the first start without one makes a key, stores it, and writes the marker last. A start that is
told which key to use looks at no marker.
-/

namespace DualSeal

/-- Why a server has no shared key. -/
inductive SharedKeyError where
  | keyCache (error : KeyCacheError)
  | file (fault : FileFault)
  deriving DecidableEq, Repr

def SharedKeyError.message : SharedKeyError → String
  | .keyCache error => "key cache error: " ++ error.message
  | .file fault => "IO error: " ++ fault.message

namespace SharedKey

def markerName : String := "shared_key_id"

def markerPath (keyDir : Path) : Path := keyDir.child markerName

/-- The id that a marker records: its text without blanks around it. -/
def markedId (contents : String) : KeyId := ⟨String.ofList (Text.trim contents.toList)⟩

/-- Creates the key directory, where it is missing, and writes the marker. -/
def mark (keyDir : Path) (id : KeyId) : FileTree.Change Unit := do
  FileTree.createDirs keyDir
  FileTree.change (·.write (markerPath keyDir) (Utf8.encodeString id.text))

variable {σ : Type} {m : Type → Type} [Monad m] [MonadStateOf σ m] [MonadStateOf FileTree m]

def load (store : KeyStore σ) (id : KeyId) : ExceptT SharedKeyError m KeyPair := do
  match ← (KeyCache.loadKeyPair (m := m) store id).run with
  | .ok pair => return pair
  | .error error => throw (.keyCache error)

/-- Stores a new key pair and records it in the marker. -/
def adopt (store : KeyStore σ) (keyDir : Path) (pair : KeyPair) :
    ExceptT SharedKeyError m KeyPair := do
  match ← (KeyCache.storeKeyPair (m := m) store pair).run with
  | .error error => throw (.keyCache error)
  | .ok id =>
    let (result, tree) := (mark keyDir id).run (← getThe FileTree)
    MonadStateOf.set tree
    match result with
    | .ok () => return pair
    | .error fault => throw (.file fault)

/-- The shared key of a server that starts: the configured one, else the marked one, else `fresh`,
which is then stored and marked. -/
def start (store : KeyStore σ) (keyDir : Path) (configured : Option KeyId) (fresh : KeyPair) :
    ExceptT SharedKeyError m KeyPair := do
  match configured with
  | some id => load store id
  | none =>
    match (← getThe FileTree).readText (markerPath keyDir) with
    | .ok contents => load store (markedId contents)
    | .error .notFound => adopt store keyDir fresh
    | .error fault => throw (.file fault)

end SharedKey

end DualSeal
