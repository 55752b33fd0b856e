import DualSeal.Config.Document
import DualSeal.Files.Tree

/-!
# Configuration files

A configuration that cannot be written leaves its file as it was.
-/

namespace DualSeal

/-- Why a configuration is not loaded or saved. -/
inductive ConfigError where
  | file (fault : FileFault)
  | parse (fault : Config.Fault)
  | serialize (fault : Config.Fault)
  deriving DecidableEq, Repr

def ConfigError.message : ConfigError → String
  | .file fault => "IO error: " ++ fault.message
  | .parse fault => "parse error: " ++ fault.message
  | .serialize fault => "serialize error: " ++ fault.message

namespace Config

def parse (document : String) : Except ConfigError Config :=
  (ofToml document).mapError .parse

def load (path : Path) (tree : FileTree) : Except ConfigError Config := do
  parse (← (tree.readText path).mapError .file)

/-- Saves a configuration to a file, which is not touched before the document is complete. -/
def saving (path : Path) (config : Config) : ExceptT ConfigError (StateM FileTree) Unit := do
  match config.toToml with
  | .error fault => throw (.serialize fault)
  | .ok document => (FileTree.change (·.write path (Utf8.encodeString document))).adapt .file

/-- The files that there are after a configuration was saved. -/
def save (path : Path) (config : Config) (tree : FileTree) : Except ConfigError FileTree :=
  let (outcome, after) := (saving path config).run.run tree
  outcome.map fun () ↦ after

end Config

end DualSeal
