import DualSeal.Bytes

/-!
# UTF-8

Encoding, and a decoder that says where and how a byte string stops being text: the offset of
the first character that cannot be read, and the number of bytes that already rule it out. A
character cut short by the end of the input is told apart, as more bytes could complete it.
-/

namespace DualSeal.Utf8

/-- Why a byte string is no text. -/
inductive Fault where
  /-- The `length` bytes at `offset` begin no character. -/
  | invalid (length offset : Nat)
  /-- The input ends inside the character that begins at `offset`. -/
  | incomplete (offset : Nat)
  deriving DecidableEq, Repr

def Fault.message : Fault → String
  | .invalid length offset =>
    "invalid utf-8 sequence of " ++ toString length ++ " bytes from index " ++ toString offset
  | .incomplete offset => "incomplete utf-8 byte sequence from index " ++ toString offset

/-- One to four bytes, by the size of the code point. -/
def encodeChar (c : Char) : Bytes :=
  let n := c.toNat
  if n < 0x80 then [UInt8.ofNat n]
  else if n < 0x800 then [UInt8.ofNat (0xC0 + n / 0x40), UInt8.ofNat (0x80 + n % 0x40)]
  else if n < 0x10000 then
    [UInt8.ofNat (0xE0 + n / 0x1000), UInt8.ofNat (0x80 + n / 0x40 % 0x40),
      UInt8.ofNat (0x80 + n % 0x40)]
  else
    [UInt8.ofNat (0xF0 + n / 0x40000), UInt8.ofNat (0x80 + n / 0x1000 % 0x40),
      UInt8.ofNat (0x80 + n / 0x40 % 0x40), UInt8.ofNat (0x80 + n % 0x40)]

def encode (text : List Char) : Bytes := text.flatMap encodeChar

/-- A byte that continues a character: `0x80` to `0xBF`. -/
def isTail (b : Nat) : Bool := 0x80 ≤ b && b ≤ 0xBF

/-- The second bytes that may follow the first byte of a three-byte character: no shorter spelling
may exist, and the code point is no surrogate. -/
def isSecondOfThree (a b : Nat) : Bool :=
  if a = 0xE0 then 0xA0 ≤ b && b ≤ 0xBF
  else if a = 0xED then 0x80 ≤ b && b ≤ 0x9F
  else isTail b

/-- The second bytes that may follow the first byte of a four-byte character: no shorter spelling
may exist, and the code point is at most `0x10FFFF`. -/
def isSecondOfFour (a b : Nat) : Bool :=
  if a = 0xF0 then 0x90 ≤ b && b ≤ 0xBF
  else if a = 0xF4 then 0x80 ≤ b && b ≤ 0x8F
  else isTail b

/-- Reads a text whose first byte stands at `offset` of the whole input. -/
def decodeFrom (offset : Nat) : Bytes → Except Fault (List Char)
  | [] => .ok []
  | a :: rest =>
    if a.toNat < 0x80 then
      (Char.ofNat a.toNat :: ·) <$> decodeFrom (offset + 1) rest
    else if 0xC2 ≤ a.toNat ∧ a.toNat ≤ 0xDF then
      match rest with
      | [] => .error (.incomplete offset)
      | b :: rest =>
        if isTail b.toNat then
          (Char.ofNat ((a.toNat - 0xC0) * 0x40 + (b.toNat - 0x80)) :: ·) <$>
            decodeFrom (offset + 2) rest
        else .error (.invalid 1 offset)
    else if 0xE0 ≤ a.toNat ∧ a.toNat ≤ 0xEF then
      match rest with
      | [] => .error (.incomplete offset)
      | b :: rest =>
        if isSecondOfThree a.toNat b.toNat then
          match rest with
          | [] => .error (.incomplete offset)
          | c :: rest =>
            if isTail c.toNat then
              (Char.ofNat ((a.toNat - 0xE0) * 0x1000 + (b.toNat - 0x80) * 0x40
                + (c.toNat - 0x80)) :: ·) <$> decodeFrom (offset + 3) rest
            else .error (.invalid 2 offset)
        else .error (.invalid 1 offset)
    else if 0xF0 ≤ a.toNat ∧ a.toNat ≤ 0xF4 then
      match rest with
      | [] => .error (.incomplete offset)
      | b :: rest =>
        if isSecondOfFour a.toNat b.toNat then
          match rest with
          | [] => .error (.incomplete offset)
          | c :: rest =>
            if isTail c.toNat then
              match rest with
              | [] => .error (.incomplete offset)
              | d :: rest =>
                if isTail d.toNat then
                  (Char.ofNat ((a.toNat - 0xF0) * 0x40000 + (b.toNat - 0x80) * 0x1000
                    + (c.toNat - 0x80) * 0x40 + (d.toNat - 0x80)) :: ·) <$>
                    decodeFrom (offset + 4) rest
                else .error (.invalid 3 offset)
            else .error (.invalid 2 offset)
        else .error (.invalid 1 offset)
    else .error (.invalid 1 offset)

def decode (bytes : Bytes) : Except Fault (List Char) := decodeFrom 0 bytes

def encodeString (text : String) : Bytes := encode text.toList

def decodeString (bytes : Bytes) : Except Fault String := String.ofList <$> decode bytes

/-- The character that stands for what cannot be read. -/
def replacement : Char := Char.ofNat 0xFFFD

/-- The text in front of an offset, up to which it can be read. -/
def readable (bytes : Bytes) (offset : Nat) : List Char :=
  (decode (bytes.take offset)).toOption.getD []

/-- Reads a text with replacements for what cannot be read; `fuel` bounds their number. -/
def decodeLossyWithin : (fuel : Nat) → Bytes → List Char
  | 0, _ => []
  | fuel + 1, bytes =>
    match decode bytes with
    | .ok text => text
    | .error (.invalid length offset) =>
      readable bytes offset ++ replacement :: decodeLossyWithin fuel (bytes.drop (offset + length))
    | .error (.incomplete offset) => readable bytes offset ++ [replacement]

/-- Reads a text with a replacement for every stretch of bytes that cannot be read. -/
def decodeLossy (bytes : Bytes) : String :=
  String.ofList (decodeLossyWithin (bytes.length + 1) bytes)

end DualSeal.Utf8
