import DualSeal.Bytes

/-!
# Numbers in JSON

The written form of a number, and the question whether it is too large to be held as a double. Of
a number's digits only so many count as fit in sixty-four bits; they and the power of ten that
goes with them are rounded to a double each, and so is their product. The number is too large if
that last rounding leaves the range of doubles.
-/

namespace DualSeal.Json

abbrev ascii (c : Char) : UInt8 := UInt8.ofNat c.toNat

def isDigit (b : UInt8) : Bool := ascii '0' ≤ b && b ≤ ascii '9'

/-! ## The written form -/

/-- The parts of a number: its digits before and after the point, and its exponent. -/
structure Number where
  whole : Bytes
  fraction : Bytes
  exponentNegative : Bool
  exponent : Bytes

/-- Reads an exponent, if there is one: its sign and digits, and the text behind it. -/
def exponent? (text : Bytes) : Option (Bool × Bytes × Bytes) :=
  match text with
  | [] => some (false, [], [])
  | b :: rest =>
    if b = ascii 'e' ∨ b = ascii 'E' then
      let signed := rest.head? = some (ascii '+') ∨ rest.head? = some (ascii '-')
      let digits := if signed then rest.drop 1 else rest
      let exponent := digits.takeWhile isDigit
      if exponent = [] then none
      else some (rest.head? = some (ascii '-'), exponent, digits.dropWhile isDigit)
    else some (false, [], text)

/-- Reads a number without its sign: no needless zero in front, and digits wherever a point or an
exponent announces them. -/
def number? (text : Bytes) : Option (Number × Bytes) := do
  let whole := text.takeWhile isDigit
  let rest := text.dropWhile isDigit
  if whole = [] ∨ (whole.head? = some (ascii '0') ∧ 1 < whole.length) then none
  else
    let fraction ← if rest.head? = some (ascii '.') then
        (let digits := (rest.drop 1).takeWhile isDigit
          if digits = [] then none else some digits)
      else some []
    let rest := if fraction = [] then rest else rest.drop (fraction.length + 1)
    let (negative, exponent, rest) ← exponent? rest
    return (⟨whole, fraction, negative, exponent⟩, rest)

/-! ## Rounding to doubles -/

/-- Binary digits in the significand of a double. -/
def precision : Nat := 53

/-- Rounds to the nearest number of at most `precision` binary digits before its trailing zeros;
of two that are equally near, to the one whose last digit is even. -/
def roundBinary (n : Nat) : Nat :=
  let unit := Nat.pow 2 (n.log2 + 1 - precision)
  let down := n / unit
  let excess := 2 * (n % unit)
  (if unit < excess ∨ (unit = excess ∧ down % 2 = 1) then down + 1 else down) * unit

/-- Whether a rounded number is beyond the largest double. -/
def isInfinite (rounded : Nat) : Bool := Nat.pow 2 1024 ≤ rounded

/-! ## Too large numbers -/

/-- The largest significand of a number that is kept. -/
def maxSignificand : Nat := Nat.pow 2 64 - 1

/-- The greatest exponent of ten that is a double. -/
def maxPower : Nat := 308

/-- The number that decimal digits spell. -/
def decimal (digits : Bytes) : Nat := digits.foldl (fun n b ↦ n * 10 + (b.toNat - 48)) 0

/-- Appends decimal digits to a significand for as long as it stays within bounds: the significand,
and the digits that had no room. -/
def appendDigits (significand : Nat) : Bytes → Nat × Bytes
  | [] => (significand, [])
  | b :: rest =>
    let longer := significand * 10 + (b.toNat - 48)
    if maxSignificand < longer then (significand, b :: rest) else appendDigits longer rest

/-- The significand of a number and its exponent of ten. A digit before the point that has no room
raises the exponent by one, a digit after the point that has room lowers it by one. -/
def Number.scaled (number : Number) : Nat × Int :=
  let (whole, dropped) := appendDigits 0 number.whole
  let (significand, ignored) := appendDigits whole number.fraction
  let exponent : Int := decimal number.exponent
  (significand, (if number.exponentNegative then -exponent else exponent) + dropped.length -
    (number.fraction.length - ignored.length))

/-- Whether a number is too large for a double. -/
def Number.isHuge (number : Number) : Bool :=
  let (significand, exponent) := number.scaled
  significand ≠ 0 && 0 ≤ exponent &&
    (maxPower < exponent ||
      isInfinite (roundBinary (roundBinary significand * roundBinary (Nat.pow 10 exponent.toNat))))

end DualSeal.Json
