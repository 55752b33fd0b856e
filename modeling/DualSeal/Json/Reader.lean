import DualSeal.Encoding.Hex
import DualSeal.Json.Number
import DualSeal.Text.Utf8

/-!
# Reading JSON

A reader works through the bytes from the front and stops at the first problem, which is one of
two: the bytes are no JSON, or they are JSON of another shape than the one asked for. Which comes
first in the text decides. Values that nobody asks for are skipped with a look at their form only,
so inside skipped strings escapes and bytes may stand that spell no character.
-/

namespace DualSeal.Json

/-- Why a text cannot be read. -/
inductive Fault where
  /-- It is no JSON, or is cut short. -/
  | malformed
  /-- It has another shape. -/
  | shape
  deriving DecidableEq, Repr

/-- Space, tab, line feed and carriage return. -/
def isBlank (b : UInt8) : Bool :=
  b = ascii ' ' || b = ascii '\t' || b = ascii '\n' || b = ascii '\r'

/-- The text from its first byte that is not blank. -/
def skipBlanks (text : Bytes) : Bytes := text.dropWhile isBlank

/-! ## Strings -/

/-- The number that four hexadecimal digits of either case spell. -/
def hex4? (a b c d : UInt8) : Option Nat := do
  let value (x : UInt8) : Option Nat := Hex.value? (Char.ofNat x.toNat)
  return ((← value a) * 16 + (← value b)) * 256 + ((← value c) * 16 + (← value d))

/-- The byte that a one-letter escape stands for. -/
def escaped? (b : UInt8) : Option UInt8 :=
  if b = ascii '"' ∨ b = ascii '\\' ∨ b = ascii '/' then some b
  else if b = ascii 'b' then some 8
  else if b = ascii 'f' then some 12
  else if b = ascii 'n' then some 10
  else if b = ascii 'r' then some 13
  else if b = ascii 't' then some 9
  else none

/-- A number that is the first half of a surrogate pair. -/
def isHighSurrogate (n : Nat) : Bool := 0xD800 ≤ n && n < 0xDC00

/-- A number that is the second half of a surrogate pair. -/
def isLowSurrogate (n : Nat) : Bool := 0xDC00 ≤ n && n < 0xE000

/-- Reads the inside of a string and its closing quote: the bytes it stands for, and the text
behind it. Surrogates must come in pairs. -/
def stringBytes? : Bytes → Option (Bytes × Bytes)
  | [] => none
  | b :: rest =>
    if b = ascii '"' then some ([], rest)
    else if b = ascii '\\' then
      match rest with
      | [] => none
      | e :: rest =>
        if e = ascii 'u' then
          match rest with
          | h1 :: h2 :: h3 :: h4 :: rest =>
            match hex4? h1 h2 h3 h4 with
            | none => none
            | some n =>
              if isHighSurrogate n then
                match rest with
                | s :: u :: l1 :: l2 :: l3 :: l4 :: rest =>
                  if s = ascii '\\' ∧ u = ascii 'u' then
                    match hex4? l1 l2 l3 l4 with
                    | none => none
                    | some k =>
                      if isLowSurrogate k then
                        (stringBytes? rest).map fun (bytes, after) ↦
                          (Utf8.encodeChar (Char.ofNat
                            (0x10000 + (n - 0xD800) * 0x400 + (k - 0xDC00))) ++ bytes, after)
                      else none
                  else none
                | _ => none
              else if isLowSurrogate n then none
              else
                (stringBytes? rest).map fun (bytes, after) ↦
                  (Utf8.encodeChar (Char.ofNat n) ++ bytes, after)
          | _ => none
        else
          match escaped? e with
          | none => none
          | some c => (stringBytes? rest).map fun (bytes, after) ↦ (c :: bytes, after)
    else if b < 32 then none
    else (stringBytes? rest).map fun (bytes, after) ↦ (b :: bytes, after)

/-- Reads a string behind its opening quote. -/
def string (text : Bytes) : Except Fault (String × Bytes) :=
  match stringBytes? text with
  | none => .error .malformed
  | some (bytes, rest) =>
    match Utf8.decodeString bytes with
    | .ok value => .ok (value, rest)
    | .error _ => .error .malformed

/-- Skips the inside of a string and its closing quote. -/
def skipString? : Bytes → Option Bytes
  | [] => none
  | b :: rest =>
    if b = ascii '"' then some rest
    else if b = ascii '\\' then
      match rest with
      | [] => none
      | e :: rest =>
        if e = ascii 'u' then
          match rest with
          | h1 :: h2 :: h3 :: h4 :: rest =>
            if (hex4? h1 h2 h3 h4).isSome then skipString? rest else none
          | _ => none
        else if (escaped? e).isSome then skipString? rest
        else none
    else if b < 32 then none
    else skipString? rest

/-! ## Words and other scalars -/

/-- Reads a word such as `null`. -/
def word? (word : String) (text : Bytes) : Option Bytes :=
  (Bytes.ofAscii word).isPrefixOf? text

/-- Skips a number, a word or a string. -/
def skipScalar? (text : Bytes) : Option Bytes :=
  match text with
  | [] => none
  | b :: rest =>
    if b = ascii '"' then skipString? rest
    else if b = ascii 'n' then word? "null" text
    else if b = ascii 't' then word? "true" text
    else if b = ascii 'f' then word? "false" text
    else (number? (if b = ascii '-' then rest else text)).map Prod.snd

/-! ## Skipping values -/

/-- An open bracket. -/
inductive Frame where
  | list
  | object
  deriving DecidableEq

def Frame.closing : Frame → UInt8
  | .list => ascii ']'
  | .object => ascii '}'

/-- Skips the key of a field and the colon behind it. -/
def skipKey? (text : Bytes) : Option Bytes :=
  match skipBlanks text with
  | [] => none
  | b :: rest =>
    if b = ascii '"' then do
      let rest ← skipString? rest
      match skipBlanks rest with
      | [] => none
      | c :: rest => if c = ascii ':' then some rest else none
    else none

/-- Skips what a frame has in front of a value. -/
def Frame.skipLead? : Frame → Bytes → Option Bytes
  | .list, text => some text
  | .object, text => skipKey? text

/-- Skips a value, or, when `done`, what may follow one, until every open bracket is closed. Each
step passes a byte at least, so `fuel` is never short when it starts at twice the length. -/
def skipWithin? : (fuel : Nat) → (done : Bool) → (frames : List Frame) → Bytes → Option Bytes
  | 0, _, _, _ => none
  | _ + 1, true, [], text => some text
  | fuel + 1, true, frame :: frames, text =>
    match skipBlanks text with
    | [] => none
    | b :: rest =>
      if b = ascii ',' then
        (frame.skipLead? rest).bind (skipWithin? fuel false (frame :: frames))
      else if b = frame.closing then skipWithin? fuel true frames rest
      else none
  | fuel + 1, false, frames, text =>
    match skipBlanks text with
    | [] => none
    | b :: rest =>
      if b = ascii '[' ∨ b = ascii '{' then
        let frame := if b = ascii '[' then Frame.list else Frame.object
        if (skipBlanks rest).head? = some frame.closing then
          skipWithin? fuel true frames ((skipBlanks rest).drop 1)
        else (frame.skipLead? rest).bind (skipWithin? fuel false (frame :: frames))
      else (skipScalar? (b :: rest)).bind (skipWithin? fuel true frames)

def skipValue (text : Bytes) : Except Fault Bytes :=
  match skipWithin? (2 * text.length + 2) false [] text with
  | some rest => .ok rest
  | none => .error .malformed

/-! ## Values of a wanted shape -/

/-- What is wrong with a value of another shape than the wanted one: its shape, provided that what
shows the shape is JSON. Brackets show it at once, words, numbers and strings at their end. -/
def mismatch (text : Bytes) : Fault :=
  match text with
  | [] => .malformed
  | b :: rest =>
    if b = ascii '[' ∨ b = ascii '{' then .shape
    else if b = ascii '"' then (match string rest with | .ok _ => .shape | .error fault => fault)
    else if b = ascii '-' ∨ isDigit b then
      match number? (if b = ascii '-' then rest else text) with
      | some (number, _) => if number.isHuge then .malformed else .shape
      | none => .malformed
    else if (skipScalar? text).isSome then .shape
    else .malformed

/-- Reads a value that begins with `mark`, by a reader of what follows that byte. -/
def expecting {α : Type} (mark : UInt8) (read : Bytes → Except Fault α) (text : Bytes) :
    Except Fault α :=
  match skipBlanks text with
  | [] => .error .malformed
  | b :: rest => if b = mark then read rest else .error (mismatch (b :: rest))

def text (input : Bytes) : Except Fault (String × Bytes) := expecting (ascii '"') string input

/-- What stands between the items of a list or an object: the next item, or the closing bracket
with the text behind it. -/
inductive Next where
  | item (rest : Bytes)
  | closed (rest : Bytes)

/-- Finds the next item of a bracketed sequence; a comma separates it from the one before, and none
may stand in front of the closing bracket. -/
def next (closing : UInt8) (first : Bool) (text : Bytes) : Except Fault Next :=
  match skipBlanks text with
  | [] => .error .malformed
  | b :: rest =>
    if b = closing then .ok (.closed rest)
    else if first then .ok (.item (b :: rest))
    else if b = ascii ',' then
      match skipBlanks rest with
      | [] => .error .malformed
      | c :: rest => if c = closing then .error .malformed else .ok (.item (c :: rest))
    else .error .malformed

/-- Reads the items of a bracketed sequence to its end; `fuel` bounds their number. -/
def itemsWithin {α : Type} (closing : UInt8) (item : Bytes → Except Fault (α × Bytes)) :
    (fuel : Nat) → (first : Bool) → Bytes → Except Fault (List α × Bytes)
  | 0, _, _ => .error .malformed
  | fuel + 1, first, text => do
    match ← next closing first text with
    | .closed rest => return ([], rest)
    | .item rest =>
      let (value, rest) ← item rest
      let (values, rest) ← itemsWithin closing item fuel false rest
      return (value :: values, rest)

def texts (input : Bytes) : Except Fault (List String × Bytes) :=
  expecting (ascii '[') (fun rest ↦ itemsWithin (ascii ']') text (rest.length + 1) true rest) input

/-- Reads a key, which must be a string, and the colon behind it. -/
def key (input : Bytes) : Except Fault (String × Bytes) :=
  match input with
  | [] => .error .malformed
  | b :: rest =>
    if b = ascii '"' then do
      let (name, rest) ← string rest
      match skipBlanks rest with
      | [] => .error .malformed
      | c :: rest => if c = ascii ':' then return (name, rest) else .error .malformed
    else .error .malformed

def textField (input : Bytes) : Except Fault ((String × String) × Bytes) := do
  let (name, rest) ← key input
  let (value, rest) ← text rest
  return ((name, value), rest)

/-- Reads an object of strings, with all its fields in the order of the text. -/
def table (input : Bytes) : Except Fault (List (String × String) × Bytes) :=
  expecting (ascii '{') (fun rest ↦ itemsWithin (ascii '}') textField (rest.length + 1) true rest)
    input

/-- Checks that only blanks are left. -/
def finish (rest : Bytes) : Except Fault Unit :=
  if skipBlanks rest = [] then .ok () else .error .malformed

end DualSeal.Json
