import DualSeal.Keys.Cache

/-!
# Looking keys up

Encryption asks for public keys by id and expects to find them at hand. A lookup that fails is told
apart from one that finds nothing.
-/

namespace DualSeal

/-- A key lookup that failed, as opposed to one that found nothing. -/
structure LookupError where
  reason : String
  deriving DecidableEq, Repr

def LookupError.message (error : LookupError) : String := "lookup error: " ++ error.reason

/-- Finds the public key of an id, where there is one. -/
abbrev KeyLookup := KeyId → Except LookupError (Option PublicKey)

/-- The public keys of a cache: what the store does not have is not found, and anything else that is
wrong is a failure. -/
def KeyCache.lookup {σ : Type} (store : KeyStore σ) (state : σ) : KeyLookup := fun id ↦
  match publicKey store state id with
  | .ok key => .ok (some key)
  | .error error => if error.isNotFound then .ok none else .error ⟨error.message⟩

end DualSeal
