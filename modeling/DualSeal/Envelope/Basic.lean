import DualSeal.Envelope.Error

/-!
# Envelopes

A plaintext is tagged with the head of its digest, cut into two shares, and put into an envelope:
one share encrypted for the shared key, the other for every recipient. The tag shows whether two
shares that are put together again belong to one secret.
-/

namespace DualSeal

/-- The means of an envelope: how shares are encrypted, and how secrets are cut. -/
structure Envelope where
  encryption : ShareEncryption
  threshold : ThresholdScheme

/-- Independent supplies of random bytes, by number. -/
abbrev EntropySource := Nat → Entropy

namespace Envelope

/-- Bytes of the tag behind a plaintext. -/
def tagLength : Nat := 16

/-- The tag of a plaintext: the head of its digest. -/
def tag (plaintext : Bytes) : Bytes := (Sha256.digest plaintext).take tagLength

/-- A plaintext with its tag behind it. -/
def addTag (plaintext : Bytes) : Bytes := plaintext ++ tag plaintext

/-- The plaintext before a tag that is its own; there must be one. -/
def checkTag? (tagged : Bytes) : Option Bytes :=
  if tagged.length ≤ tagLength then none
  else
    let plaintext := tagged.take (tagged.length - tagLength)
    if tag plaintext = tagged.drop (tagged.length - tagLength) then some plaintext else none

end Envelope

end DualSeal
