import DualSeal.Bytes

/-!
# Hexadecimal text

Two lower-case digits a byte on the way out; either case on the way in.
-/

namespace DualSeal.Hex

/-- The lower-case digit of a number below sixteen. -/
def digit (n : Nat) : Char :=
  if n < 10 then Char.ofNat (48 + n) else Char.ofNat (87 + n)

/-- The number that a hexadecimal digit of either case stands for. -/
def value? (c : Char) : Option Nat :=
  if '0' ≤ c ∧ c ≤ '9' then some (c.toNat - 48)
  else if 'a' ≤ c ∧ c ≤ 'f' then some (c.toNat - 87)
  else if 'A' ≤ c ∧ c ≤ 'F' then some (c.toNat - 55)
  else none

/-- The digits of a byte string, high half first. -/
def digits (bytes : Bytes) : List Char :=
  bytes.flatMap fun b ↦ [digit (b.toNat / 16), digit (b.toNat % 16)]

def encode (bytes : Bytes) : String := String.ofList (digits bytes)

/-- Reads pairs of digits back; a half pair or a foreign character refuses the text. -/
def ofDigits? : List Char → Option Bytes
  | [] => some []
  | [_] => none
  | high :: low :: rest =>
    match value? high, value? low, ofDigits? rest with
    | some h, some l, some bytes => some (UInt8.ofNat (h * 16 + l) :: bytes)
    | _, _, _ => none

def decode? (text : String) : Option Bytes := ofDigits? text.toList

end DualSeal.Hex
