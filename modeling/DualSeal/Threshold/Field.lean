/-!
# The field of 256 elements

Bytes as polynomials over the field of two elements, reduced by `x⁸ + x⁴ + x³ + x² + 1`. Addition
is exclusive or, so subtraction is addition.
-/

namespace DualSeal

/-- An element of the field, written as a byte. -/
structure Gf256 where
  byte : UInt8
  deriving DecidableEq, Repr

namespace Gf256

instance : Zero Gf256 := ⟨⟨0⟩⟩
instance : One Gf256 := ⟨⟨1⟩⟩
instance : Add Gf256 := ⟨fun a b ↦ ⟨a.byte ^^^ b.byte⟩⟩

/-- Multiplication by the variable. -/
def double (a : Gf256) : Gf256 :=
  ⟨if a.byte &&& 0x80 = 0 then a.byte <<< 1 else (a.byte <<< 1) ^^^ 0x1d⟩

/-- The sum of the doublings of `a` that the last `bits` binary digits of `b` select, the most
significant digit first. -/
def mulBits (a : Gf256) (b : UInt8) : (bits : Nat) → (sum : Gf256) → Gf256
  | 0, sum => sum
  | bits + 1, sum =>
    mulBits a b bits (if b.toNat.testBit bits then sum.double + a else sum.double)

instance : Mul Gf256 := ⟨fun a b ↦ mulBits a b.byte 8 0⟩

def square (a : Gf256) : Gf256 := a * a

/-- The inverse of an element other than zero: its power to 254. -/
def inv (a : Gf256) : Gf256 :=
  let a2 := a.square
  let a3 := a2 * a
  let a6 := a3.square
  let a7 := a6 * a
  let a14 := a7.square
  let a15 := a14 * a
  let a30 := a15.square
  let a31 := a30 * a
  let a62 := a31.square
  let a63 := a62 * a
  let a126 := a63.square
  let a127 := a126 * a
  a127.square

def product (elements : List Gf256) : Gf256 := elements.foldr (· * ·) 1

def sum (elements : List Gf256) : Gf256 := elements.foldr (· + ·) 0

end Gf256

end DualSeal
