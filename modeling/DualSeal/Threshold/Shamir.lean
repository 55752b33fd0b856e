import DualSeal.Threshold.Field
import DualSeal.Threshold.Scheme

/-!
# Shamir's scheme

Every byte of a secret is the value at zero of a polynomial of its own, of degree below the
threshold, whose other coefficients are random bytes. A share holds the polynomials' values at one
non-zero point, followed by that point. Interpolation at zero gives the secret back from as many
shares as the threshold says: a byte of the secret is a sum of the shares' bytes, each weighted by
a factor that depends on the points alone.
-/

namespace DualSeal.Shamir

/-- The value at `x` of the polynomial with these coefficients, the constant one first. -/
def evaluate (coefficients : List Gf256) (x : Gf256) : Gf256 :=
  coefficients.foldr (fun c value ↦ value * x + c) 0

/-- The factors `x` over `x - own`, multiplied over the points other than the own one. -/
def weight (own : Gf256) (others : List Gf256) : Gf256 :=
  Gf256.product others * (Gf256.product (others.map (· + own))).inv

/-- The weight of every point in the interpolation at zero; `before` holds the points passed. -/
def weightsAfter (before : List Gf256) : List Gf256 → List Gf256
  | [] => []
  | x :: after => weight x (before ++ after) :: weightsAfter (before ++ [x]) after

/-- The weight of every point in the interpolation at zero. -/
def weights (xs : List Gf256) : List Gf256 := weightsAfter [] xs

/-- The polynomial of one byte: the byte, then the random coefficients. -/
def polynomial (byte : UInt8) (random : Bytes) : List Gf256 := ⟨byte⟩ :: random.map Gf256.mk

/-- The polynomials of the bytes of a secret, which draw their coefficients one after the other
from position `start` of the random bytes on. -/
def polynomials (degree : Nat) (random : Entropy) (start : Nat) :
    (secret : Bytes) → List (List Gf256)
  | [] => []
  | byte :: secret =>
    polynomial byte (random.slice start degree) ::
      polynomials degree random (start + degree) secret

/-- The share at a point. -/
def shareAt (polynomials : List (List Gf256)) (x : UInt8) : Share :=
  ⟨polynomials.map (fun f ↦ (evaluate f ⟨x⟩).byte) ++ [x]⟩

/-- The points of the shares: one, two, and so on. -/
def points (parts : Nat) : Bytes := (List.range parts).map fun i ↦ UInt8.ofNat (i + 1)

/-- Why a secret cannot be split, if it cannot. -/
def splitFault? (secret : Bytes) (parts threshold : Nat) : Option SplitFault :=
  if threshold < 2 then some (.thresholdTooLow threshold)
  else if parts < threshold then some (.tooFewParts parts threshold)
  else if maxParts < parts then some (.tooManyParts parts)
  else if secret = [] then some .emptySecret
  else none

/-- Cuts a secret into shares. -/
def split (random : Entropy) (secret : Bytes) (parts threshold : Nat) :
    Except ThresholdError (List Share) :=
  match splitFault? secret parts threshold with
  | some fault => .error (.invalidParameters fault)
  | none => .ok ((points parts).map (shareAt (polynomials (threshold - 1) random 0 secret)))

/-- What is wrong with the points of shares, if anything: the first point that is zero or repeats
one of those before it. -/
def pointFault? (seen : Bytes) : Bytes → Option ShareFault
  | [] => none
  | x :: xs =>
    if x = 0 then some .zeroCoordinate
    else if x ∈ seen then some (.repeatedCoordinate x)
    else pointFault? (x :: seen) xs

/-- The point of a share: its last byte. -/
def point (share : Share) : UInt8 := share.bytes.getLastD 0

/-- The byte at one position of the secret, from the shares' bytes there. -/
def recoverByte (weights : List Gf256) (column : Bytes) : UInt8 :=
  (Gf256.sum (List.zipWith (fun w y ↦ Gf256.mk y * w) weights column)).byte

/-- The first `size` bytes of the secret, from the shares' bytes row by row. -/
def recoverBytes (weights : List Gf256) : (size : Nat) → (rows : List Bytes) → Bytes
  | 0, _ => []
  | size + 1, rows =>
    recoverByte weights (rows.map (·.headD 0)) :: recoverBytes weights size (rows.map List.tail)

/-- Puts shares together: in every position, the weighted sum of their bytes. -/
def recover (shares : List Share) (size : Nat) : Bytes :=
  recoverBytes (weights (shares.map fun share ↦ ⟨point share⟩)) size (shares.map Share.bytes)

/-- Why shares do not combine, if they do not. -/
def combineError? : List Share → Option ThresholdError
  | [] => some (.insufficientShares 0)
  | [_] => some (.insufficientShares 1)
  | share :: shares =>
    if share.size < 2 then some (.malformed (.tooShort share.size))
    else if shares.any (fun other ↦ other.size ≠ share.size) then some (.malformed .lengthsDiffer)
    else (pointFault? [] ((share :: shares).map point)).map .malformed

/-- The secret that shares belong to. -/
def combine (shares : List Share) : Except ThresholdError Bytes :=
  match combineError? shares with
  | some error => .error error
  | none => .ok (recover shares ((shares.headD default).size - 1))

def scheme : ThresholdScheme := ⟨split, combine⟩

end DualSeal.Shamir
