import DualSeal.Toml.Text
import DualSeal.Toml.Value

/-!
# TOML numbers, dates and times

Integers have sixty-four bits. Numbers that are no integers, dates and times are checked, and then
kept as they are written.
-/

namespace DualSeal.Toml

/-- What stands in front of the rest of a text. -/
def consumed (text rest : List Char) : String :=
  String.ofList (text.take (text.length - rest.length))

/-! ## Numbers -/

/-- Reads digits behind a digit; a single underscore may stand between two of them. -/
def digitTail? (base : Nat) : List Char → Option (List Char × List Char)
  | [] => some ([], [])
  | c :: rest =>
    if Numeral.isDigit base c then
      (digitTail? base rest).map fun (digits, rest) ↦ (c :: digits, rest)
    else if c = '_' then
      if (rest.head?.map (Numeral.isDigit base)).getD false then digitTail? base rest else none
    else some ([], c :: rest)

def digits? (base : Nat) (text : List Char) : Option (List Char × List Char) :=
  if (text.head?.map (Numeral.isDigit base)).getD false then digitTail? base text else none

/-- Reads the digits of a decimal number, which has no needless zero in front. -/
def decimal? (text : List Char) : Option (List Char × List Char) :=
  if text.head? = some '0' then some (['0'], text.drop 1) else digits? 10 text

/-- Reads a sign: whether it is a minus, and the text behind. -/
def sign (text : List Char) : Bool × List Char :=
  match text with
  | '+' :: rest => (false, rest)
  | '-' :: rest => (true, rest)
  | _ => (false, text)

/-- The bound that positive integers stay below. -/
def integerBound : Nat := 0x8000000000000000

/-- Reads an integer in a base other than ten behind its mark. -/
def based? (base : Nat) (text : List Char) : Option (Value × List Char) := do
  let (digits, rest) ← digits? base text
  if Numeral.value base digits < integerBound then
    return (.integer (Numeral.value base digits), rest)
  else none

def decimalInteger? (text : List Char) : Option (Value × List Char) := do
  let (negative, start) := sign text
  let (digits, rest) ← decimal? start
  let value := Numeral.value 10 digits
  if negative then
    if value ≤ integerBound then return (.integer (-value), rest) else none
  else if value < integerBound then return (.integer value, rest)
  else none

def integer? (text : List Char) : Option (Value × List Char) :=
  match text with
  | '0' :: 'x' :: rest => based? 16 rest
  | '0' :: 'o' :: rest => based? 8 rest
  | '0' :: 'b' :: rest => based? 2 rest
  | _ => decimalInteger? text

def exponent? (text : List Char) : Option (Int × List Char) :=
  match text with
  | [] => none
  | c :: rest =>
    if c = 'e' ∨ c = 'E' then do
      let (negative, start) := sign rest
      let (digits, rest) ← digits? 10 start
      let value : Int := Numeral.value 10 digits
      return (if negative then -value else value, rest)
    else none

/-- Whether digits, shifted by a power of ten, are so large that the nearest double is infinite. -/
def overflows (digits : List Char) (shift : Int) : Bool :=
  let digits := digits.dropWhile (· = '0')
  let magnitude := (digits.length : Int) + shift
  let bound := Nat.pow 2 1024 - Nat.pow 2 970
  if digits = [] ∨ magnitude ≤ 308 then false
  else if 309 < magnitude then true
  else if shift < 0 then bound * Nat.pow 10 shift.natAbs ≤ Numeral.value 10 digits
  else bound ≤ Numeral.value 10 digits * Nat.pow 10 shift.natAbs

/-- Reads the digits behind a point. -/
def fraction? (text : List Char) : Option (List Char × List Char) :=
  match text with
  | '.' :: rest => digits? 10 rest
  | _ => none

/-- Reads a number with a fraction or an exponent, or one of the words for what is no number. -/
def real? (text : List Char) : Option (Value × List Char) :=
  let (negative, start) := sign text
  match "inf".toList.isPrefixOf? start, "nan".toList.isPrefixOf? start with
  | some rest, _ | _, some rest => some (.real (consumed text rest), rest)
  | none, none => do
    let (whole, rest) ← decimal? start
    let (fraction, shift, rest) ← match fraction? rest with
      | some (fraction, rest) =>
        match exponent? rest with
        | some (shift, rest) => some (fraction, shift, rest)
        | none => some (fraction, 0, rest)
      | none => (exponent? rest).map fun (shift, rest) ↦ ([], shift, rest)
    if !negative && overflows (whole ++ fraction) (shift - fraction.length) then none
    else return (.real (consumed text rest), rest)

/-! ## Dates and times -/

/-- Reads a number of exactly `count` digits. -/
def fixed? (count low high : Nat) (text : List Char) : Option (Nat × List Char) :=
  let digits := text.take count
  let value := Numeral.value 10 digits
  if digits.length = count ∧ digits.all (Numeral.isDigit 10) ∧ low ≤ value ∧ value ≤ high then
    some (value, text.drop count)
  else none

def mark? (mark : Char) : List Char → Option (List Char)
  | [] => none
  | c :: rest => if c = mark then some rest else none

def daysIn (year month : Nat) : Nat :=
  if month = 2 then
    if year % 4 = 0 ∧ (year % 100 ≠ 0 ∨ year % 400 = 0) then 29 else 28
  else if month = 4 ∨ month = 6 ∨ month = 9 ∨ month = 11 then 30
  else 31

def date? (text : List Char) : Option (List Char) := do
  let (year, rest) ← fixed? 4 0 9999 text
  let (month, rest) ← fixed? 2 1 12 (← mark? '-' rest)
  let (_, rest) ← fixed? 2 1 (daysIn year month) (← mark? '-' rest)
  return rest

def clock? (text : List Char) : Option (List Char) := do
  let (_, rest) ← fixed? 2 0 23 text
  let (_, rest) ← fixed? 2 0 59 (← mark? ':' rest)
  let (_, rest) ← fixed? 2 0 60 (← mark? ':' rest)
  match mark? '.' rest with
  | none => return rest
  | some digits =>
    if (digits.takeWhile (Numeral.isDigit 10)).isEmpty then return rest
    else return digits.dropWhile (Numeral.isDigit 10)

/-- Passes a distance from universal time. -/
def offset? (text : List Char) : Option (List Char) :=
  match text with
  | [] => none
  | c :: rest =>
    if c = 'Z' ∨ c = 'z' then some rest
    else if c = '+' ∨ c = '-' then do
      let (_, rest) ← fixed? 2 0 23 rest
      let (_, rest) ← fixed? 2 0 59 (← mark? ':' rest)
      return rest
    else none

/-- Passes the time of day and the offset behind a date, as far as they are there. -/
def afterDate (text : List Char) : List Char :=
  match text with
  | [] => []
  | c :: rest =>
    if c = 'T' ∨ c = 't' ∨ c = ' ' then
      match clock? rest with
      | some rest => (offset? rest).getD rest
      | none => text
    else text

def time? (text : List Char) : Option (Value × List Char) :=
  (((date? text).map afterDate).or (clock? text)).map fun rest ↦ (.time (consumed text rest), rest)

/-- Reads what begins with a sign or a digit. -/
def number? (text : List Char) : Option (Value × List Char) :=
  ((time? text).or (real? text)).or (integer? text)

end DualSeal.Toml
