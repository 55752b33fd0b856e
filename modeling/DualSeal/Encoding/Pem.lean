import DualSeal.Encoding.Base64

/-!
# Textual encapsulation of binary data

A block is an opening boundary that names a label, the base64 of the body in lines of 64 symbols,
and a closing boundary with the same label. Reading is strict about the lines: every line but the
last has exactly 64 symbols. Text before the block is skipped when a line feed
separates it from the block; nothing may follow the block but one end of line.
-/

namespace DualSeal.Pem

/-- What opens a block, up to its label. -/
def opening : Bytes := Bytes.ofAscii "-----BEGIN "

/-- What closes a block, up to its label. -/
def closing : Bytes := Bytes.ofAscii "-----END "

/-- What follows a label. -/
def dashes : Bytes := Bytes.ofAscii "-----"

/-- Symbols in a full line. -/
def lineWidth : Nat := 64

def lf : UInt8 := 10

def cr : UInt8 := 13

/-- Why a text holds no block. -/
inductive Fault where
  /-- No block begins at the start of the text or of a line, or a NUL stands before it. -/
  | preamble
  /-- The label is not followed by five dashes and an end of line, or has a foreign character. -/
  | label
  /-- The text does not end with five dashes. -/
  | preBoundary
  /-- The text does not end with a closing boundary of the same label on a line of its own. -/
  | postBoundary
  /-- There is no base64 where the last quad should stand. -/
  | bodyLength
  /-- The body is no base64 in lines of 64. -/
  | bodyEncoding
  /-- As `bodyEncoding`, in a text that has a colon, as header lines would. -/
  | headers
  deriving DecidableEq, Repr

def Fault.message : Fault → String
  | .preamble => "PEM preamble contains invalid data (NUL byte)"
  | .label => "PEM type label invalid"
  | .preBoundary => "PEM error in pre-encapsulation boundary"
  | .postBoundary => "PEM error in post-encapsulation boundary"
  | .bodyLength => "PEM Base64 error: invalid Base64 length"
  | .bodyEncoding => "PEM Base64 error: invalid Base64 encoding"
  | .headers => "PEM headers disallowed by RFC7468"

def joinLines : List Bytes → Bytes
  | [] => []
  | [line] => line
  | line :: lines => line ++ lf :: joinLines lines

/-- The block of a body. An empty body leaves an empty line between the boundaries. -/
def encode (label body : Bytes) : Bytes :=
  opening ++ label ++ dashes ++ [lf] ++
    joinLines (chunks lineWidth (Base64.encode body)) ++
    lf :: (closing ++ label ++ dashes ++ [lf])

def encodeText (label : String) (body : Bytes) : String :=
  Bytes.toLatin (encode (Bytes.ofAscii label) body)

/-- The text from its first block on: at the start, or after a line feed with no NUL before it. -/
def skipPreamble : Bytes → Except Fault Bytes
  | [] => .error .preamble
  | b :: rest =>
    if b = 0 then .error .preamble
    else if b = lf ∧ opening.isPrefixOf rest then .ok rest
    else skipPreamble rest

/-- What follows the opening words of the first block. -/
def findBlock (text : Bytes) : Except Fault Bytes := do
  let block ← if opening.isPrefixOf text then .ok text else skipPreamble text
  return block.drop opening.length

/-- A visible ASCII character other than the dash. -/
def isLabelByte (b : UInt8) : Bool := 0x21 ≤ b.toNat && b.toNat ≤ 0x7E && b ≠ 0x2D

/-- The label in front of the first dash, and the text from that dash on. A blank may separate two
visible characters; `none` when another character turns up. `first` holds before any character,
`blank` right after a blank. -/
def splitLabel? : Bytes → (first blank : Bool) → Option (Bytes × Bytes)
  | [], _, _ => some ([], [])
  | b :: rest, first, blank =>
    if isLabelByte b then (splitLabel? rest false false).map fun (l, r) ↦ (b :: l, r)
    else if b = 0x2D then some ([], b :: rest)
    else if (b = 0x20 ∨ b = 0x09) ∧ ¬first ∧ ¬blank then
      (splitLabel? rest false true).map fun (l, r) ↦ (b :: l, r)
    else none

/-- The text after its leading end of line. -/
def dropLeadingEol? : Bytes → Option Bytes
  | [] => none
  | b :: rest =>
    if b = lf then some rest
    else if b = cr then
      match rest with
      | c :: rest' => if c = lf then some rest' else some rest
      | [] => some rest
    else none

/-- The text before its trailing end of line. A reversed line end is a line feed that a carriage
return may follow, or a carriage return alone. -/
def dropTrailingEol? (text : Bytes) : Option Bytes :=
  match text.reverse with
  | [] => none
  | b :: rest =>
    if b = lf then
      match rest with
      | c :: rest' => if c = cr then some rest'.reverse else some rest.reverse
      | [] => some []
    else if b = cr then some rest.reverse
    else none

/-- The label of the block at the start of `text`, from which the opening words are gone, and the
text between its boundaries. -/
def splitBlock (text : Bytes) : Except Fault (Bytes × Bytes) := do
  let some (label, rest) := splitLabel? text true false | .error .label
  let some rest := dashes.isPrefixOf? rest | .error .label
  let some rest := dropLeadingEol? rest | .error .label
  let some rest := dashes.isSuffixOf? ((dropTrailingEol? rest).getD rest) | .error .preBoundary
  let some rest := label.isSuffixOf? rest | .error .postBoundary
  let some rest := closing.isSuffixOf? rest | .error .postBoundary
  let some inner := dropTrailingEol? rest | .error .postBoundary
  return (label, inner)

/-- The text between the boundaries. -/
structure BodyText where
  lines : List Bytes
  /-- An end of line is left behind the last full line, or stands alone. It is no line, but the last
  full line then is not known to end the body, and cannot be padded. -/
  surplus : Bool

/-- The lines of a body: full lines, each with its end of line, until at most a full line is left,
whose own end of line is dropped. `none` when a full line goes on. `fuel` bounds their number. -/
def linesWithin? : (fuel : Nat) → Bytes → Option BodyText
  | 0, _ => some ⟨[], false⟩
  | _ + 1, [] => some ⟨[], false⟩
  | fuel + 1, b :: rest =>
    let text := b :: rest
    if text.length ≤ lineWidth then
      let line := (dropTrailingEol? text).getD text
      some (if line = [] then ⟨[], true⟩ else ⟨[line], false⟩)
    else
      match dropLeadingEol? (text.drop lineWidth) with
      | some after =>
        (linesWithin? fuel after).map fun body ↦
          { body with lines := text.take lineWidth :: body.lines }
      | none => none

/-- The fill at the end of base64 whose last quad is short. -/
def padding : UInt8 := 0x3D

/-- The body between the boundaries. Nothing at all is no body, though a lone end of line is an
empty one. -/
def decodeBody (inner : Bytes) : Except Fault Bytes := do
  let some text := linesWithin? inner.length inner | .error .bodyEncoding
  let symbols := text.lines.flatten
  let lastQuad := if symbols.length % 4 = 0 then 4 else symbols.length % 4
  if text.lines = [] ∧ text.surplus then return []
  else if (text.lines.getLast?.getD []).length < lastQuad then .error .bodyLength
  else if text.surplus ∧ symbols.contains padding then .error .bodyEncoding
  else
    match Base64.decode symbols with
    | .ok body => .ok body
    | .error _ => .error .bodyEncoding

/-- The label and the body of the first block in a text. -/
def decode (text : Bytes) : Except Fault (Bytes × Bytes) := do
  let (label, inner) ← splitBlock (← findBlock text)
  match decodeBody inner with
  | .ok body => return (label, body)
  | .error .bodyEncoding => .error (if text.contains 0x3A then .headers else .bodyEncoding)
  | .error fault => .error fault

end DualSeal.Pem
