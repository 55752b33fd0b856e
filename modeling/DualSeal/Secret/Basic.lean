import DualSeal.Keys.KeyId

/-!
# Secrets

A secret is cut into shares, and each share travels as a shard: encrypted for one key and
addressed by that key's id. A secret value at rest is the list of its shards, the one for the
shared key and one for every recipient.
-/

namespace DualSeal

/-- A share of a secret in the clear. -/
structure Share where
  bytes : Bytes
  deriving DecidableEq, Inhabited

def Share.size (share : Share) : Nat := share.bytes.length

/-- An encrypted share: the id of the key that opens it, and the armoured ciphertext. -/
structure Shard where
  keyId : KeyId
  value : String
  deriving DecidableEq, Repr

/-- A secret value at rest. -/
structure Secret where
  shards : List Shard
  deriving DecidableEq, Repr

namespace Secret

/-- The shard addressed to exactly this id. -/
def find? (secret : Secret) (id : KeyId) : Option Shard :=
  secret.shards.find? fun shard ↦ shard.keyId = id

def keyIds (secret : Secret) : List KeyId := secret.shards.map Shard.keyId

def size (secret : Secret) : Nat := secret.shards.length

end Secret

end DualSeal
