import DualSeal.Keys.KeyPair
import DualSeal.Keys.Store.Basic

/-!
# The key cache

The cache reads keys from a store and checks that they are what their ids say. Public keys that are
missing are fetched from elsewhere and written through to the store; private keys never are.
-/

namespace DualSeal

/-- Why a public key cannot be fetched. -/
inductive ResolverError where
  | notFound (id : KeyId)
  | network (reason : String)
  | storage (reason : String)
  deriving DecidableEq, Repr

def ResolverError.message : ResolverError → String
  | .notFound id => "public key not found: " ++ id.text
  | .network reason => "network error: " ++ reason
  | .storage reason => "resolver storage error: " ++ reason

/-- Fetches the text of a public key from elsewhere, acting in `m`. -/
abbrev KeyResolver (m : Type → Type) := KeyId → ExceptT ResolverError m String

/-- Why the cache gives or takes no key. -/
inductive KeyCacheError where
  | store (error : KeyStoreError)
  | resolver (id : KeyId) (error : ResolverError)
  | invalidKey (id : KeyId) (error : KeyError)
  | fingerprintMismatch (expected actual : KeyId)
  deriving DecidableEq, Repr

def KeyCacheError.message : KeyCacheError → String
  | .store error => "key store error: " ++ error.message
  | .resolver id error => "failed to resolve public key " ++ id.text ++ ": " ++ error.message
  | .invalidKey id error => "invalid key material for " ++ id.text ++ ": " ++ error.message
  | .fingerprintMismatch expected actual =>
    "fingerprint mismatch: expected " ++ expected.text ++ ", got " ++ actual.text

/-- Whether the store has no such key, and nothing else is wrong. -/
def KeyCacheError.isNotFound : KeyCacheError → Bool
  | .store (.notFound _) => true
  | _ => false

namespace KeyCache

/-- Checks that a key is the one that its id names. -/
def ensureFingerprint (expected actual : KeyId) : Except KeyCacheError Unit :=
  if expected = actual then .ok () else .error (.fingerprintMismatch expected actual)

/-- The public key that a text under an id stands for. -/
def parsePublicKey (id : KeyId) (text : String) : Except KeyCacheError PublicKey := do
  let key ← (PublicKey.ofPem text).mapError (.invalidKey id)
  ensureFingerprint id key.id
  return key

def parseKeyPair (id : KeyId) (text : String) : Except KeyCacheError KeyPair := do
  let pair ← (KeyPair.ofPem text).mapError (.invalidKey id)
  ensureFingerprint id pair.id
  return pair

def publicKey {σ : Type} (store : KeyStore σ) (state : σ) (id : KeyId) :
    Except KeyCacheError PublicKey := do
  parsePublicKey id (← (store.get .pub id state).mapError .store)

def keyPair {σ : Type} (store : KeyStore σ) (state : σ) (id : KeyId) :
    Except KeyCacheError KeyPair := do
  parseKeyPair id (← (store.get .priv id state).mapError .store)

variable {σ : Type} {m : Type → Type} [Monad m] [MonadStateOf σ m] (store : KeyStore σ)

def put (kind : KeyKind) (id : KeyId) (text : String) : ExceptT KeyCacheError m Unit := do
  match store.put kind id text (← getThe σ) with
  | .ok state => MonadStateOf.set state
  | .error error => throw (.store error)

def get (kind : KeyKind) (id : KeyId) : ExceptT KeyCacheError m String := do
  match store.get kind id (← getThe σ) with
  | .ok text => return text
  | .error error => throw (.store error)

/-- Stores both halves of a key pair under its id, the private one first. -/
def storeKeyPair (pair : KeyPair) : ExceptT KeyCacheError m KeyId := do
  put store .priv pair.id pair.toPem
  put store .pub pair.id pair.publicKey.toPem
  return pair.id

def loadKeyPair (id : KeyId) : ExceptT KeyCacheError m KeyPair := do
  match keyPair store (← getThe σ) id with
  | .ok pair => return pair
  | .error error => throw error

def loadPublicKey (id : KeyId) : ExceptT KeyCacheError m PublicKey := do
  match publicKey store (← getThe σ) id with
  | .ok key => return key
  | .error error => throw error

/-- Fetches a public key, and stores its text once the key is known to be the right one. -/
def fetch (resolver : KeyResolver m) (id : KeyId) : ExceptT KeyCacheError m Unit := do
  match ← (resolver id).run with
  | .error error => throw (.resolver id error)
  | .ok text =>
    match parsePublicKey id text with
    | .error error => throw error
    | .ok _ => put store .pub id text

/-- Makes sure that the store has public keys for all ids: those it has are left alone, those it
lacks are fetched, and the first failure ends it. -/
def precache (resolver : KeyResolver m) : List KeyId → ExceptT KeyCacheError m Unit
  | [] => pure ()
  | id :: ids => do
    match store.get .pub id (← getThe σ) with
    | .ok _ => pure ()
    | .error (.notFound _) => fetch store resolver id
    | .error error => throw (.store error)
    precache resolver ids

end KeyCache

end DualSeal
