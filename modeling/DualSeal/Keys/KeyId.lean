import DualSeal.Crypto.Sha256
import DualSeal.Encoding.Hex

/-!
# Key ids

A key id is the address that ties a shard, a stored key and a key pair together. It is compared
as text and means nothing else; the ids that the library makes are fingerprints.
-/

namespace DualSeal

/-- The address of a key. -/
structure KeyId where
  text : String
  deriving DecidableEq, Inhabited, Repr

instance : ToString KeyId := ⟨KeyId.text⟩

/-- The order of the ids' bytes, which is the order of their code points. -/
def KeyId.le (a b : KeyId) : Bool := !decide (b.text < a.text)

/-- Bytes of the digest that make a fingerprint. -/
def KeyId.fingerprintLength : Nat := 16

/-- The id of a public key's bytes: the leading bytes of their digest, in hexadecimal. -/
def KeyId.fingerprint (key : Bytes) : KeyId :=
  ⟨Hex.encode ((Sha256.digest key).take fingerprintLength)⟩

end DualSeal
