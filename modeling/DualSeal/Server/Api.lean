import DualSeal.Json.Record
import DualSeal.Json.Writer
import DualSeal.Keys.KeyId
import DualSeal.Mediator.Basic

/-!
# The interface of a server

The paths that a server answers, and the documents that go in and out, for the server and its
clients alike.
-/

namespace DualSeal.Api

/-- Where shards of the shared key are opened. -/
def decryptPath : String := "/mediator/decrypt"

/-- Where keys are registered. -/
def keysPath : String := "/keys"

def healthPath : String := "/health"

/-- Where a key is shown. -/
def keyPath (id : KeyId) : String := keysPath ++ "/" ++ id.text

/-- A public key with its id. -/
structure KeyDocument where
  keyId : KeyId
  pem : String
  deriving DecidableEq

def requestDocument (request : MediatorRequest) : String :=
  Json.writeRecord [("key_id", request.keyId.text), ("value", request.value)]

def readRequest (document : Bytes) : Except Json.Fault MediatorRequest := do
  match ← Json.readRecord [.required "key_id", .required "value"] document with
  | [.text id, .text value] => return ⟨value, ⟨id⟩⟩
  | _ => .error .shape

/-- The document of a share in base64. -/
def shareDocument (share : String) : String := Json.writeRecord [("share", share)]

/-- Reads a share in base64. -/
def readShare (document : Bytes) : Except Json.Fault String := do
  match ← Json.readRecord [.required "share"] document with
  | [.text share] => return share
  | _ => .error .shape

def keyDocument (key : KeyDocument) : String :=
  Json.writeRecord [("key_id", key.keyId.text), ("public_key_pem", key.pem)]

def readKey (document : Bytes) : Except Json.Fault KeyDocument := do
  match ← Json.readRecord [.required "key_id", .required "public_key_pem"] document with
  | [.text id, .text pem] => return ⟨⟨id⟩, pem⟩
  | _ => .error .shape

def readRegistration (document : Bytes) : Except Json.Fault String := do
  match ← Json.readRecord [.required "public_key_pem"] document with
  | [.text pem] => return pem
  | _ => .error .shape

end DualSeal.Api
