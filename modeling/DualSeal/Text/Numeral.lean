import DualSeal.Encoding.Hex

/-!
# Numerals

Natural numbers written with the digits of a base up to sixteen, in lower case and without leading
zeros. Reading takes digits of either case, and leading zeros.
-/

namespace DualSeal.Numeral

/-- A number in digits. -/
def write (base n : Nat) : List Char := Nat.toDigits base n

def isDigit (base : Nat) (c : Char) : Bool :=
  match Hex.value? c with
  | some value => value < base
  | none => false

/-- The number that digits spell. -/
def value (base : Nat) (digits : List Char) : Nat :=
  digits.foldl (fun n c ↦ n * base + (Hex.value? c).getD 0) 0

/-- Reads all digits at the front, of which there must be one, as a number below `bound`. -/
def read? (base bound : Nat) (text : List Char) : Option (Nat × List Char) :=
  let digits := text.takeWhile (isDigit base)
  if digits = [] ∨ bound ≤ value base digits then none
  else some (value base digits, text.dropWhile (isDigit base))

end DualSeal.Numeral
