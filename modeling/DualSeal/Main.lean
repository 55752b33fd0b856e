import DualSeal.Config.File
import DualSeal.Http.Text
import DualSeal.Keys.SharedKey
import DualSeal.Keys.Store.Directory
import DualSeal.Secret.Hpke
import DualSeal.Server.Options
import DualSeal.Server.Router
import Std.Async.TCP

/-!
# The server program

Reads the options and the configuration, prepares the shared key, and answers requests one at a
time. The files of the key directory are read when a step needs them, and written when it has
changed them.
-/

open DualSeal Std.Async

namespace DualSeal.Program

/-- The tree with a file of the key directory as it is now. -/
def refresh (keyDir : Path) (tree : FileTree) (path : Path) : IO FileTree := do
  try
    let contents ← IO.FS.readBinFile (keyDir.join path).text
    return tree.set path.steps (.file contents.toList FileTree.privateMode)
  catch _ => return tree

/-- Writes a file beside its place, and then moves it there. -/
def writeFile (target : String) (contents : Bytes) (mode : Nat) : IO Unit := do
  let draft := target ++ ".tmp"
  IO.FS.writeBinFile draft (ByteArray.mk contents.toArray)
  if mode = FileTree.privateMode then
    IO.setAccessRights draft { user := { read := true, write := true } }
  IO.FS.rename draft target

/-- Writes the files in which a tree differs from the one before. -/
def writeChanges (keyDir : Path) (before after : FileTree) : IO Unit := do
  for (location, entry) in after.entries do
    if before.get? location ≠ some entry then
      let target := (keyDir.join (.ofNames location)).text
      match entry with
      | .file contents mode => writeFile target contents mode
      | .directory => IO.FS.createDirAll target

/-- The key directory itself, as the root of its tree. -/
def root : Path := ⟨"/"⟩

/-- Random bytes from the system. -/
def entropy : IO Entropy := do
  let bytes ← IO.getRandomBytes 4096
  return fun i ↦ (bytes.data[i]?).getD 0

def configure (options : Options) : IO Config := do
  match options.config with
  | none => return options.apply .default
  | some path =>
    match Config.parse (← IO.FS.readFile path.text) with
    | .ok config => return options.apply config
    | .error error =>
      throw (.userError ("Failed to load config from " ++ path.text ++ ": " ++ error.message))

/-- Loads the shared key, or makes it. -/
def sharedKey (keyDir : Path) (configured : Option KeyId) : IO KeyPair := do
  let some fresh := Hpke.freshPair? (← entropy) | throw (.userError "no random key")
  let marker := Path.ofNames [SharedKey.markerName]
  let tree ← refresh keyDir .empty marker
  let id? := configured.or ((tree.readText marker).toOption.map SharedKey.markedId)
  let tree ← match id?.map fun id ↦ KeyKind.priv.path ⟨""⟩ id with
    | some (.ok path) => refresh keyDir tree path
    | _ => pure tree
  let run : StateM FileTree (Except SharedKeyError KeyPair) :=
    (SharedKey.start (.directory root) root configured fresh).run
  let (result, after) := run.run tree
  match result with
  | .ok pair =>
    writeChanges keyDir tree after
    return pair
  | .error error => throw (.userError ("Failed to prepare shared key: " ++ error.message))

/-- The answer to a request, after which its changes are written. -/
def serve (server : Server FileTree) (keyDir : Path) (request : Http.Request) :
    IO Http.Response := do
  let tree ← match (Server.askedId? request).map fun id ↦ KeyKind.pub.path ⟨""⟩ id with
    | some (.ok path) => refresh keyDir .empty path
    | _ => pure .empty
  let (response, after) := server.handle request tree
  writeChanges keyDir tree after
  return response

/-- The most bytes of a request. -/
def requestLimit : Nat := 2 * Server.bodyLimit

/-- Reads a request from a client, and answers it. -/
partial def converse (server : Server FileTree) (keyDir : Path) (client : TCP.Socket.Client)
    (received : ByteArray) : Async Unit := do
  match Http.arrival received.toList with
  | .complete request =>
    let response ← serve server keyDir request
    client.send (ByteArray.mk response.bytes.toArray)
    client.shutdown
  | .malformed =>
    client.send (ByteArray.mk (Http.Response.bare 400).bytes.toArray)
    client.shutdown
  | .incomplete =>
    if requestLimit < received.size then client.shutdown
    else
      match ← client.recv? 65536 with
      | none => client.shutdown
      | some bytes => converse server keyDir client (received ++ bytes)

/-- Answers clients one after the other. -/
partial def listen (server : Server FileTree) (keyDir : Path) (socket : TCP.Socket.Server) :
    Async Unit := do
  let client ← socket.accept
  try converse server keyDir client .empty catch _ => pure ()
  listen server keyDir socket

/-- An address as the system takes it. -/
def systemAddress : SocketAddress → Std.Net.SocketAddress
  | .v4 host port => .v4 ⟨⟨⟨[host.a, host.b, host.c, host.d].toArray, rfl⟩⟩, port⟩
  | .v6 host _ port => .v6 ⟨⟨⟨host.groups.toArray, host.length_eq⟩⟩, port⟩

def start (arguments : List String) : IO Unit := do
  match Options.empty.ofArguments arguments with
  | .error fault => throw (.userError fault.message)
  | .ok options =>
    let config ← configure options
    let keyDir := config.server.keyDir
    IO.FS.createDirAll keyDir.text
    let pair ← sharedKey keyDir config.server.sharedKeyId
    IO.println ("Shared key ID: " ++ pair.id.text)
    let server : Server FileTree := ⟨⟨pair, Hpke.shareEncryption⟩, .directory root⟩
    let socket ← TCP.Socket.Server.mk
    socket.bind (systemAddress config.server.listen)
    socket.listen 128
    IO.println ("HTTP listen address: " ++ config.server.listen.text)
    (← IO.getStdout).flush
    (listen server keyDir socket).block

end DualSeal.Program

def main (arguments : List String) : IO Unit := DualSeal.Program.start arguments
