import DualSeal.Keys.Cache
import DualSeal.Keys.Store.Memory

/-!
# A registry of public keys

A source of public keys that is a table, and counts how often it is asked. The table is shared: when
one of those who hold it fails meanwhile, it is no longer read or written by anyone.
-/

namespace DualSeal

/-- The registered texts, the number of requests so far, and whether someone failed who held the
table. -/
structure KeyRegistry where
  table : TextTable KeyId
  lookups : Nat
  isAbandoned : Bool

/-- Why a key is not registered. -/
inductive RegistrationError where
  | invalidKey (error : KeyError)
  | resolver (error : ResolverError)
  deriving DecidableEq, Repr

def RegistrationError.message : RegistrationError → String
  | .invalidKey error => error.message
  | .resolver error => error.message

namespace KeyRegistry

def empty : KeyRegistry := ⟨.empty, 0, false⟩

/-- What is said of a table that is no longer read or written. -/
def abandoned : ResolverError := .storage "poisoned lock: another task failed inside"

/-- Registers a text under an id, whatever it holds. -/
def insert (registry : KeyRegistry) (id : KeyId) (text : String) :
    Except ResolverError KeyRegistry :=
  if registry.isAbandoned then .error abandoned
  else .ok { registry with table := registry.table.insert id text }

/-- Registers a key under its fingerprint. -/
def register (registry : KeyRegistry) (text : String) :
    Except RegistrationError (KeyId × KeyRegistry) := do
  let key ← (PublicKey.ofPem text).mapError .invalidKey
  let registry ← (registry.insert key.id text).mapError .resolver
  return (key.id, registry)

def answer (registry : KeyRegistry) (id : KeyId) : Except ResolverError String :=
  if registry.isAbandoned then .error abandoned
  else
    match registry.table.get? id with
    | some text => .ok text
    | none => .error (.notFound id)

/-- The registry as a source of keys. A request counts also when it cannot be answered. -/
def resolver {m : Type → Type} [Monad m] [MonadStateOf KeyRegistry m] : KeyResolver m := fun id ↦ do
  let registry ← getThe KeyRegistry
  MonadStateOf.set { registry with lookups := registry.lookups + 1 }
  match registry.answer id with
  | .ok text => return text
  | .error error => throw error

end KeyRegistry

end DualSeal
