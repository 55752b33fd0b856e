import DualSeal.Secret.Basic

/-!
# Threshold schemes

A threshold scheme cuts a secret into shares of which enough give it back. Splitting draws random
bytes, which are an argument: a run is a function of the secret and of the bytes drawn.
-/

namespace DualSeal

/-- A supply of random bytes: the `i`-th byte drawn. -/
abbrev Entropy := Nat → UInt8

/-- The `count` bytes of a supply from position `start` on. -/
def Entropy.slice (entropy : Entropy) (start count : Nat) : Bytes :=
  (List.range count).map fun i ↦ entropy (start + i)

/-- Which numbers a secret cannot be split with. -/
inductive SplitFault where
  /-- The threshold is below two. -/
  | thresholdTooLow (threshold : Nat)
  /-- There would be fewer parts than the threshold asks for. -/
  | tooFewParts (parts threshold : Nat)
  /-- There are not that many distinct non-zero bytes. -/
  | tooManyParts (parts : Nat)
  | emptySecret
  /-- A refusal in a scheme's own words. -/
  | other (reason : String)
  deriving DecidableEq, Repr

/-- The most parts a secret can be cut into. -/
def maxParts : Nat := 255

def SplitFault.message : SplitFault → String
  | .thresholdTooLow threshold => "threshold must be at least 2, got " ++ toString threshold
  | .tooFewParts parts threshold =>
    "parts (" ++ toString parts ++ ") must not be less than threshold ("
      ++ toString threshold ++ ")"
  | .tooManyParts parts =>
    "parts must be at most " ++ toString maxParts ++ ", got " ++ toString parts
  | .emptySecret => "secret must not be empty"
  | .other reason => reason

/-- Why shares do not combine. -/
inductive ShareFault where
  | tooShort (size : Nat)
  | lengthsDiffer
  /-- A share claims to be the secret itself. -/
  | zeroCoordinate
  | repeatedCoordinate (x : UInt8)
  /-- A refusal in a scheme's own words. -/
  | other (reason : String)
  deriving DecidableEq, Repr

def ShareFault.message : ShareFault → String
  | .tooShort size => "share too short: " ++ toString size ++ " bytes"
  | .lengthsDiffer => "share lengths differ"
  | .zeroCoordinate => "share has x coordinate 0"
  | .repeatedCoordinate x => "duplicate x coordinate " ++ toString x.toNat
  | .other reason => reason

/-- Why a threshold scheme gives no answer. -/
inductive ThresholdError where
  | invalidParameters (fault : SplitFault)
  | insufficientShares (count : Nat)
  | malformed (fault : ShareFault)
  deriving DecidableEq, Repr

def ThresholdError.message : ThresholdError → String
  | .invalidParameters fault => "invalid parameters: " ++ fault.message
  | .insufficientShares count => "not enough shares: got " ++ toString count
  | .malformed fault => "malformed shares: " ++ fault.message

/-- A way to cut secrets into shares and to put them together again. -/
structure ThresholdScheme where
  /-- Cuts a secret into `parts` shares of which `threshold` are enough. -/
  split : Entropy → (secret : Bytes) → (parts threshold : Nat) → Except ThresholdError (List Share)
  /-- The secret that shares belong to. -/
  combine : List Share → Except ThresholdError Bytes

end DualSeal
