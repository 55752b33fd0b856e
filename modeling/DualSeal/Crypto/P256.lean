import DualSeal.Bytes

/-!
# The curve P-256

The points of `y² = x³ - 3x + b` over the field of `p` elements, their multiples, and their SEC1
encodings. A `Point` is a point other than the one at infinity, in reduced affine
coordinates, with the proof that it lies on the curve; what is read from outside becomes a `Point`
only by passing that test. Multiples are computed in Jacobian coordinates, which need one
inversion at the end only.
-/

namespace DualSeal.P256

/-- The size of the field. -/
def p : Nat := 0xffffffff00000001000000000000000000000000ffffffffffffffffffffffff

/-- The number of points. -/
def n : Nat := 0xffffffff00000000ffffffffffffffffbce6faada7179e84f3b9cac2fc632551

/-- The constant of the curve. -/
def b : Nat := 0x5ac635d8aa3a93e7b3ebbd55769886bc651d06b0cc53b0f63bce3c3e27d2604b

/-- Bytes of a coordinate, and of a scalar. -/
def width : Nat := 32

/-! ## The field -/

/-- The difference of two reduced numbers. -/
def sub (x y : Nat) : Nat := (x + p - y) % p

/-- The power of `x` to the number whose last `bits` binary digits `exponent` has. -/
def powBits (x exponent : Nat) : (bits : Nat) → (product : Nat) → Nat
  | 0, product => product
  | bits + 1, product =>
    let square := product * product % p
    powBits x exponent bits (if exponent.testBit bits then square * x % p else square)

/-- The power of `x` to an exponent below 2^256. -/
def pow (x exponent : Nat) : Nat := powBits x exponent 256 1

/-- The inverse of a number other than zero, by Fermat. -/
def inv (x : Nat) : Nat := pow x (p - 2)

/-- The right side of the curve's equation. -/
def cubic (x : Nat) : Nat := (x * x % p * x + (p - 3) * x + b) % p

/-- A square root of a square: `p` leaves 3 when divided by 4. -/
def sqrt? (square : Nat) : Option Nat :=
  let y := pow square ((p + 1) / 4)
  if y * y % p = square % p then some y else none

/-! ## Points -/

/-- Reduced coordinates that solve the curve's equation. -/
def OnCurve (x y : Nat) : Prop := x < p ∧ y < p ∧ y * y % p = cubic x

instance (x y : Nat) : Decidable (OnCurve x y) := by unfold OnCurve; infer_instance

/-- A point of the curve other than the one at infinity. -/
structure Point where
  x : Nat
  y : Nat
  onCurve : OnCurve x y
  deriving DecidableEq

/-- The point of these coordinates, if there is one. -/
def Point.mk? (x y : Nat) : Option Point :=
  if h : OnCurve x y then some ⟨x, y, h⟩ else none

/-- The point that generates the group. -/
def base : Point where
  x := 0x6b17d1f2e12c4247f8bce6e563a440f277037d812deb33a0f4a13945d898c296
  y := 0x4fe342e2fe1a7f9b8ee7eb4a7c0f9e162bce33576b315ececbb6406837bf51f5
  onCurve := by decide +kernel

/-! ## Multiples -/

/-- A point in Jacobian coordinates: `(x / z², y / z³)`, at infinity when `z` is zero. -/
structure Jacobian where
  x : Nat
  y : Nat
  z : Nat

def Jacobian.infinity : Jacobian := ⟨1, 1, 0⟩

def Jacobian.double (q : Jacobian) : Jacobian :=
  let delta := q.z * q.z % p
  let gamma := q.y * q.y % p
  let beta := q.x * gamma % p
  let alpha := 3 * (sub q.x delta * ((q.x + delta) % p)) % p
  let x := sub (alpha * alpha % p) (8 * beta % p)
  let z := sub (sub ((q.y + q.z) * (q.y + q.z) % p) gamma) delta
  ⟨x, sub (alpha * sub (4 * beta % p) x % p) (8 * gamma * gamma % p), z⟩

/-- The sum of a point and an affine one. -/
def Jacobian.add (q : Jacobian) (point : Point) : Jacobian :=
  if q.z = 0 then ⟨point.x, point.y, 1⟩
  else
    let zz := q.z * q.z % p
    let h := sub (point.x * zz % p) q.x
    let r := sub (point.y * zz % p * q.z % p) q.y
    if h = 0 then (if r = 0 then q.double else infinity)
    else
      let hh := h * h % p
      let hhh := hh * h % p
      let v := q.x * hh % p
      let x := sub (sub (r * r % p) hhh) (2 * v % p)
      ⟨x, sub (r * sub v x % p) (q.y * hhh % p), q.z * h % p⟩

/-- The multiple of `point` by the number whose last `bits` binary digits `k` has. -/
def mulBits (point : Point) (k : Nat) : (bits : Nat) → Jacobian → Jacobian
  | 0, sum => sum
  | bits + 1, sum =>
    let twice := sum.double
    mulBits point k bits (if k.testBit bits then twice.add point else twice)

/-- The affine point of Jacobian coordinates, if it is not at infinity. -/
def Jacobian.affine? (q : Jacobian) : Option Point :=
  if q.z = 0 then none
  else
    let zInv := inv q.z
    let zz := zInv * zInv % p
    Point.mk? (q.x * zz % p) (q.y * zz % p * zInv % p)

/-- The multiple of a point by a number below 2^256, if it is not at infinity. -/
def mul? (k : Nat) (point : Point) : Option Point :=
  (mulBits point k 256 Jacobian.infinity).affine?

/-! ## Encodings -/

/-- The uncompressed form: 65 bytes. -/
def Point.encode (point : Point) : Bytes :=
  0x04 :: (Bytes.ofNat width point.x ++ Bytes.ofNat width point.y)

/-- The compressed form: 33 bytes, the first of which tells whether `y` is odd. -/
def Point.compress (point : Point) : Bytes :=
  (if point.y % 2 = 0 then 0x02 else 0x03) :: Bytes.ofNat width point.x

@[simp] theorem Point.length_encode (point : Point) : point.encode.length = 65 := by
  simp [Point.encode, width]

/-- The point over `x` for which `choose` accepts the ordinate, of the two there may be. -/
def Point.lift? (x : Nat) (choose : Nat → Bool) : Option Point := do
  let y ← sqrt? (cubic x)
  Point.mk? x (if choose y then y else sub 0 y)

/-- Reads a point: uncompressed, compressed, or compact, where the smaller ordinate is meant. The
point at infinity and the hybrid forms are refused. -/
def Point.decode? : Bytes → Option Point
  | [] => none
  | form :: body =>
    if form = 0x04 then
      if body.length = 2 * width then
        Point.mk? (Bytes.toNat (body.take width)) (Bytes.toNat (body.drop width))
      else none
    else if form = 0x02 ∨ form = 0x03 ∨ form = 0x05 then
      if body.length = width then
        Point.lift? (Bytes.toNat body) fun y ↦
          if form = 0x05 then y ≤ sub 0 y else y % 2 = form.toNat % 2
      else none
    else none

/-- Reads an uncompressed point only. -/
def Point.ofUncompressed? (bytes : Bytes) : Option Point :=
  if bytes.head? = some 0x04 then Point.decode? bytes else none

end DualSeal.P256
