import DualSeal.Files.Tree
import DualSeal.Project.Document

/-!
# Where projects are kept

A repository holds at most one project. Saving replaces it as a whole.
-/

namespace DualSeal

/-- Why a repository gives or takes no project. -/
inductive RepositoryError where
  | notFound
  | storage (fault : FileFault)
  | serialization (fault : Json.Fault)
  deriving DecidableEq, Repr

def RepositoryError.message : RepositoryError → String
  | .notFound => "project not found"
  | .storage fault => "storage error: " ++ fault.message
  | .serialization .malformed => "serialization error: not a JSON document"
  | .serialization .shape => "serialization error: not a project document"

/-- A place for one project; loads and saves act in `m`. -/
structure ProjectRepository (m : Type → Type) where
  load : ExceptT RepositoryError m Project
  save : Project → ExceptT RepositoryError m Unit

namespace ProjectRepository

def readFile (path : Path) (tree : FileTree) : Except RepositoryError Project := do
  let text ← (tree.readText path).mapError fun
    | .notFound => .notFound
    | fault => .storage fault
  (Project.ofDocument (Utf8.encodeString text)).mapError .serialization

/-- The tree with a project in the file at a path. -/
def writeFile (path : Path) (project : Project) (tree : FileTree) :
    Except RepositoryError FileTree :=
  (tree.replace path (Utf8.encode project.document)).mapError .storage

/-- A repository that is a state. -/
def inMemory {m : Type → Type} [Monad m] [MonadStateOf (Option Project) m] :
    ProjectRepository m where
  load := do
    match ← getThe (Option Project) with
    | some project => return project
    | none => throw .notFound
  save project := MonadStateOf.set (some project)

def jsonFile {m : Type → Type} [Monad m] [MonadStateOf FileTree m] (path : Path) :
    ProjectRepository m where
  load := do
    match readFile path (← getThe FileTree) with
    | .ok project => return project
    | .error error => throw error
  save project := do
    match writeFile path project (← getThe FileTree) with
    | .ok tree => MonadStateOf.set tree
    | .error error => throw error

end ProjectRepository

end DualSeal
