import DualSeal.Bytes

/-!
# Distinguished encoding

The tag-length-value framing of X.690, as far as key files need it: lengths are written with the
fewest bytes, and a reader that meets any other spelling refuses it. An element is kept as its tag
and its contents; what the contents mean is for the reader of the enclosing structure to say.
-/

namespace DualSeal.Der

/-- A tagged byte string. -/
structure Element where
  tag : UInt8
  content : Bytes
  deriving DecidableEq, Repr

def integerTag : UInt8 := 0x02
def bitStringTag : UInt8 := 0x03
def octetStringTag : UInt8 := 0x04
def objectIdTag : UInt8 := 0x06
def sequenceTag : UInt8 := 0x30

/-- The tag of the context-specific constructed element of a number. -/
def contextTag (number : Nat) : UInt8 := UInt8.ofNat (0xA0 + number)

/-- A length in the fewest bytes. -/
def encodeLength (length : Nat) : Bytes :=
  if length < 0x80 then [UInt8.ofNat length]
  else if length < 0x100 then [0x81, UInt8.ofNat length]
  else if length < 0x10000 then 0x82 :: Bytes.ofNat 2 length
  else if length < 0x1000000 then 0x83 :: Bytes.ofNat 3 length
  else 0x84 :: Bytes.ofNat 4 length

/-- An element's tag, length and contents. -/
def encode (tag : UInt8) (content : Bytes) : Bytes :=
  tag :: (encodeLength content.length ++ content)

/-- The tags that may begin an element: the universal types that key files may hold, and every
application, context-specific and private number below thirty-one. -/
def isTag (tag : UInt8) : Bool :=
  let t := tag.toNat
  if t < 0x40 then
    [0x01, 0x02, 0x03, 0x04, 0x05, 0x06, 0x09, 0x0A, 0x0C, 0x12, 0x13, 0x14, 0x15, 0x16, 0x17, 0x18,
      0x1A, 0x1E, 0x30, 0x31].contains t
  else t % 32 ≠ 31

/-- A context-specific tag, simple or constructed. -/
def isContextTag (tag : UInt8) : Bool := 0x80 ≤ tag.toNat && tag.toNat < 0xC0

/-- The number of a context-specific tag. -/
def contextNumber (tag : UInt8) : Nat := tag.toNat % 32

/-- Whether the tag announces further elements as contents. -/
def isConstructed (tag : UInt8) : Bool := tag.toNat / 32 % 2 = 1

/-- Reads a length; the spelling must be the shortest one. -/
def readLength? : Bytes → Option (Nat × Bytes)
  | [] => none
  | first :: rest =>
    let width := first.toNat - 0x80
    if first.toNat < 0x80 then some (first.toNat, rest)
    else if 1 ≤ width ∧ width ≤ 4 ∧ width ≤ rest.length then
      let length := Bytes.toNat (rest.take width)
      if encodeLength length = first :: rest.take width then some (length, rest.drop width)
      else none
    else none

/-- Reads the element in front, and gives what follows it. -/
def read? : Bytes → Option (Element × Bytes)
  | [] => none
  | tag :: rest =>
    if isTag tag then do
      let (length, rest) ← readLength? rest
      if length ≤ rest.length then some (⟨tag, rest.take length⟩, rest.drop length) else none
    else none

/-- Reads elements until nothing is left; `fuel` bounds their number. -/
def readAllWithin? : (fuel : Nat) → Bytes → Option (List Element)
  | _, [] => some []
  | 0, _ :: _ => none
  | fuel + 1, b :: rest => do
    let (element, rest) ← read? (b :: rest)
    let elements ← readAllWithin? fuel rest
    return element :: elements

/-- The elements that a byte string is made of. -/
def readAll? (bytes : Bytes) : Option (List Element) := readAllWithin? bytes.length bytes

/-- The contents of the only element of a byte string, which must have this tag. -/
def unwrap? (tag : UInt8) (bytes : Bytes) : Option Bytes :=
  match readAll? bytes with
  | some [element] => if element.tag = tag then some element.content else none
  | _ => none

/-- The bytes of a bit string that has no unused bits. -/
def wholeBits? : Bytes → Option Bytes
  | 0 :: bytes => some bytes
  | _ => none

/-- The contents of a sequence's elements. -/
def sequence? (bytes : Bytes) : Option (List Element) := do
  readAll? (← unwrap? sequenceTag bytes)

end DualSeal.Der
