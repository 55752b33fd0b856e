import DualSeal.Encoding.Hex
import DualSeal.Text.Utf8

/-!
# Escapes in URLs

A percent sign with two hexadecimal digits stands for a byte, and so for a part of a character that
could not stand there itself.
-/

namespace DualSeal.Http

/-- The bytes that a segment stands for: a percent sign with two hexadecimal digits is a byte, and
everything else is itself. -/
def unescape : Bytes → Bytes
  | [] => []
  | [a] => [a]
  | [a, b] => [a, b]
  | a :: b :: c :: rest =>
    match Hex.value? (Char.ofNat b.toNat), Hex.value? (Char.ofNat c.toNat) with
    | some high, some low =>
      if a.toNat = 0x25 then UInt8.ofNat (high * 16 + low) :: unescape rest
      else a :: unescape (b :: c :: rest)
    | _, _ => a :: unescape (b :: c :: rest)

def escapeByte (b : UInt8) : List Char :=
  ['%', (Hex.digit (b.toNat / 16)).toUpper, (Hex.digit (b.toNat % 16)).toUpper]

/-- A text with the characters that `keeps` does not hold escaped. -/
def escape (keeps : Char → Bool) (text : List Char) : List Char :=
  text.flatMap fun c ↦ if keeps c then [c] else (Utf8.encodeChar c).flatMap escapeByte

end DualSeal.Http
