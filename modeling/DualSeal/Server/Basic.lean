import DualSeal.Http.MediaType
import DualSeal.Http.Message
import DualSeal.Keys.Cache
import DualSeal.Mediator.Local
import DualSeal.Server.Api

/-!
# What a server does

A server opens shards of its shared key and keeps the public keys that are registered with it. Only
a registration changes its store, and what is stored is the canonical text of the key under the
fingerprint that the server computes itself.
-/

namespace DualSeal

/-- A server: a mediator with the shared key, and a store for public keys. -/
structure Server (σ : Type) where
  mediator : LocalMediator
  store : KeyStore σ

namespace Server

open Http

/-- The most bytes of a body. -/
def bodyLimit : Nat := 2097152

/-- The answer to a body that is not the document that was asked for. -/
def faultResponse : Json.Fault → Response
  | .malformed => .ofText 400 "Failed to parse the request body as JSON: malformed document"
  | .shape =>
    .ofText 422 "Failed to deserialize the JSON body into the target type: other fields expected"

/-- Reads a document from a request: it must say that it is JSON, not be too long, and be read. -/
def readBody {α : Type} (read : Bytes → Except Json.Fault α) (request : Request) :
    Except Response α :=
  if (request.contentType.map isJsonType).getD false then
    if bodyLimit < request.body.length then
      .error (.ofText 413 "Failed to buffer the request body: length limit exceeded")
    else (read request.body).mapError faultResponse
  else .error (.ofText 415 "Expected request with `Content-Type: application/json`")

/-- The status of a refusal to open a shard. -/
def refusalCode : LocalMediatorError → Nat
  | .foreignKey _ => 403
  | .invalidValue _ => 400
  | .decryption => 422

def decrypt (mediator : LocalMediator) (request : Request) : Response :=
  match readBody Api.readRequest request with
  | .error response => response
  | .ok asked =>
    match mediator.openShard asked with
    | .ok share => .ofJson 200 (Api.shareDocument (Shard.encodeValue share.bytes))
    | .error error => .ofText (refusalCode error) error.message

/-- The answer where the store fails. -/
def storeResponse (error : KeyStoreError) : Response :=
  let code := match error with
    | .notFound _ => 404
    | .invalidKeyId _ => 400
    | .storage _ => 500
  .ofText code (KeyCacheError.store error).message

variable {σ : Type} (store : KeyStore σ)

def showKey (id : KeyId) (state : σ) : Response :=
  match store.get .pub id state with
  | .ok pem => .ofJson 200 (Api.keyDocument ⟨id, pem⟩)
  | .error error => storeResponse error

def register (request : Request) (state : σ) : Response × σ :=
  match readBody Api.readRegistration request with
  | .error response => (response, state)
  | .ok text =>
    match PublicKey.ofPem text with
    | .error error => (.ofText 400 error.message, state)
    | .ok key =>
      match store.put .pub key.id key.toPem state with
      | .error error => (storeResponse error, state)
      | .ok state => (.ofJson 201 (Api.keyDocument ⟨key.id, key.toPem⟩), state)

end Server

end DualSeal
