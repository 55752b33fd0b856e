import DualSeal.Config.Basic
import DualSeal.Toml.Document

/-!
# Configuration documents

A configuration is a document with a table for the server and one for the client. What is missing
takes its default, and what is not known does not matter. A table may also be given as the list of
its values, in the order of the fields.
-/

namespace DualSeal.Config

/-- What is wrong with a document. -/
inductive Fault where
  /-- It is no TOML. -/
  | notToml
  /-- The value under a name cannot be used. -/
  | badValue (name : String)
  deriving DecidableEq, Repr

def Fault.message : Fault → String
  | .notToml => "not a TOML document"
  | .badValue name => "unusable value of " ++ name

/-! ## Reading -/

/-- The fields that a value gives to a record. A list gives them by position, and a time gives none
that a record knows. -/
def recordFields? (names : List String) : Toml.Value → Option Toml.Table
  | .table _ entries => some entries
  | .list items => some (names.zip items)
  | .tables items => some (names.zip (items.map (.table .header)))
  | .time _ => some []
  | _ => none

/-- The value under a name, read by `read?`, or a default. -/
def field {α : Type} (fields : Toml.Table) (name : String) (fallback : α)
    (read? : Toml.Value → Option α) : Except Fault α :=
  match fields.lookup name with
  | none => .ok fallback
  | some value =>
    match read? value with
    | some value => .ok value
    | none => .error (.badValue name)

def text? : Toml.Value → Option String
  | .text value => some value
  | _ => none

/-- An integer from zero to below `bound`. -/
def natural? (bound : Nat) : Toml.Value → Option Nat
  | .integer (.ofNat value) => if value < bound then some value else none
  | _ => none

def serverNames : List String := ["listen", "key_dir", "shared_key_id"]

def clientNames : List String := ["server_url", "timeout_ms", "max_retries", "retry_backoff_ms"]

def readServer (fields : Toml.Table) : Except Fault ServerConfig := do
  return {
    listen := ← field fields "listen" ServerConfig.default.listen fun value ↦
      (text? value).bind SocketAddress.ofText?
    keyDir := ← field fields "key_dir" ServerConfig.default.keyDir fun value ↦
      (text? value).map Path.mk
    sharedKeyId := ← field fields "shared_key_id" none fun value ↦
      (text? value).map fun id ↦ some ⟨id⟩ }

def readClient (fields : Toml.Table) : Except Fault ClientConfig := do
  let defaults := ClientConfig.default
  return {
    serverUrl := ← field fields "server_url" defaults.serverUrl text?
    timeout := ← field fields "timeout_ms" defaults.timeout fun value ↦
      (natural? UInt64.size value).map UInt64.ofNat
    maxRetries := ← field fields "max_retries" defaults.maxRetries fun value ↦
      (natural? UInt32.size value).map UInt32.ofNat
    retryBackoff := ← field fields "retry_backoff_ms" defaults.retryBackoff fun value ↦
      (natural? UInt64.size value).map UInt64.ofNat }

def ofToml (document : String) : Except Fault Config := do
  match Toml.ofText? document with
  | none => .error .notToml
  | some table =>
    let server ← field table "server" [] (recordFields? serverNames)
    let client ← field table "client" [] (recordFields? clientNames)
    return ⟨← readServer server, ← readClient client⟩

/-! ## Writing -/

def entryLine (name : String) (value : List Char) : List Char :=
  name.toList ++ " = ".toList ++ value ++ ['\n']

def headerLine (name : String) : List Char := '[' :: name.toList ++ [']', '\n']

/-- A written number; the format has none from 2^63 on. -/
def writeNumber (name : String) (value : Nat) : Except Fault (List Char) :=
  if value < Toml.integerBound then .ok (Numeral.write 10 value) else .error (.badValue name)

def serverLines (server : ServerConfig) : List Char :=
  headerLine "server" ++ entryLine "listen" (Toml.writeText server.listen.chars) ++
    entryLine "key_dir" (Toml.writeText server.keyDir.text.toList) ++
    (match server.sharedKeyId with
      | some id => entryLine "shared_key_id" (Toml.writeText id.text.toList)
      | none => [])

def clientLines (client : ClientConfig) : Except Fault (List Char) := do
  let timeout ← writeNumber "timeout_ms" client.timeout.toNat
  let maxRetries ← writeNumber "max_retries" client.maxRetries.toNat
  let retryBackoff ← writeNumber "retry_backoff_ms" client.retryBackoff.toNat
  return headerLine "client" ++ entryLine "server_url" (Toml.writeText client.serverUrl.toList) ++
    entryLine "timeout_ms" timeout ++ entryLine "max_retries" maxRetries ++
    entryLine "retry_backoff_ms" retryBackoff

def toToml (config : Config) : Except Fault String := do
  let client ← clientLines config.client
  return String.ofList (serverLines config.server ++ '\n' :: client)

end DualSeal.Config
