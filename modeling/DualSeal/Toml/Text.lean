import DualSeal.Text.Numeral

/-!
# TOML strings

A string stands in quotation marks, where a backslash begins an escape, or in apostrophes, where
nothing does. Three marks on either side let it run over several lines; a line break right behind
the opening marks does not count, and up to two marks may stand in front of the closing ones.

Writing takes the first of these forms that needs no escape, and escapes otherwise.
-/

namespace DualSeal.Toml

/-- The mark of strings with escapes. -/
def quote : Char := '"'

/-- The mark of strings without escapes. -/
def apostrophe : Char := Char.ofNat 0x27

/-- A character that may stand for itself on a line: anything but controls, and the tab. -/
def isPlain (c : Char) : Bool := c = '\t' || (0x20 ≤ c.toNat && c.toNat ≠ 0x7F)

def isSpace (c : Char) : Bool := c = ' ' || c = '\t'

/-- The text behind a line break, if there is one at the front. -/
def newline? : List Char → Option (List Char)
  | '\n' :: rest => some rest
  | '\r' :: '\n' :: rest => some rest
  | _ => none

/-! ## Reading -/

def charOf? (code : Nat) : Option Char :=
  if h : code.isValidChar then some (Char.ofNatAux code h) else none

/-- The character that `count` hexadecimal digits at the front name. -/
def hexEscape? (count : Nat) (text : List Char) : Option Char :=
  let digits := text.take count
  if digits.length = count ∧ digits.all (Numeral.isDigit 16) then charOf? (Numeral.value 16 digits)
  else none

/-- Reads an escape behind its backslash: the character, and how many characters name it. -/
def escape? : List Char → Option (Char × Nat)
  | [] => none
  | c :: rest =>
    if c = 'b' then some (Char.ofNat 8, 1)
    else if c = 't' then some ('\t', 1)
    else if c = 'n' then some ('\n', 1)
    else if c = 'f' then some (Char.ofNat 12, 1)
    else if c = 'r' then some ('\r', 1)
    else if c = quote ∨ c = '\\' then some (c, 1)
    else if c = 'u' then (hexEscape? 4 rest).map (·, 5)
    else if c = 'U' then (hexEscape? 8 rest).map (·, 9)
    else none

/-- A character in front of what is read behind it. -/
def consRead (c : Char) : Option (List Char × List Char) → Option (List Char × List Char) :=
  Option.map fun (text, rest) ↦ (c :: text, rest)

/-- Reads a string on one line behind its opening mark, after `skip` characters that are done. -/
def readBasic? : (skip : Nat) → List Char → Option (List Char × List Char)
  | _, [] => none
  | skip + 1, _ :: rest => readBasic? skip rest
  | 0, c :: rest =>
    if c = quote then some ([], rest)
    else if c = '\\' then
      match escape? rest with
      | some (escaped, width) => consRead escaped (readBasic? width rest)
      | none => none
    else if isPlain c then consRead c (readBasic? 0 rest)
    else none

/-- Reads a string without escapes on one line behind its opening mark. -/
def readLiteral? (text : List Char) : Option (List Char × List Char) :=
  match text.dropWhile fun c ↦ isPlain c && c ≠ apostrophe with
  | [] => none
  | c :: rest =>
    if c = apostrophe then some (text.takeWhile fun c ↦ isPlain c && c ≠ apostrophe, rest) else none

/-- What a reader of several lines passes over next. -/
inductive Skip where
  | characters (count : Nat)
  /-- Spaces, tabs and line breaks. -/
  | blanks

/-- The end of a string on several lines: its last marks, when more than the closing ones stand
there, and the text behind. -/
def closeLong? (mark : Char) (text : List Char) : Option (List Char × List Char) :=
  ((List.replicate 3 mark).isPrefixOf? text).map fun rest ↦
    let extra := (rest.takeWhile (· = mark)).take 2
    (extra, rest.drop extra.length)

/-- What a character is to a string on several lines. -/
inductive LongStep where
  /-- The closing marks stand here; the end of the string, and the text behind. -/
  | close (text rest : List Char)
  /-- A character is read, and then something is passed over. -/
  | read (c : Char) (skip : Skip)
  /-- Nothing is read, and then something is passed over. -/
  | pass (skip : Skip)
  | refuse

/-- The step at a character, when `blanks` are passed over or not. A backslash at the end of a line
joins the next text that is not blank. -/
def longStep (blanks : Bool) (c : Char) (rest : List Char) : LongStep :=
  let breaks := (newline? (c :: rest)).isSome
  if blanks ∧ (isSpace c ∨ breaks) then .pass .blanks
  else
    match closeLong? quote (c :: rest) with
    | some (text, rest) => .close text rest
    | none =>
      if c = '\\' then
        if (newline? (rest.dropWhile isSpace)).isSome then .pass .blanks
        else
          match escape? rest with
          | some (escaped, width) => .read escaped (.characters width)
          | none => .refuse
      else if isPlain c ∨ c = '\n' then .read c (.characters 0)
      else if breaks then .pass (.characters 0)
      else .refuse

/-- Reads a string on several lines behind its opening marks. -/
def readLongBasic? : Skip → List Char → Option (List Char × List Char)
  | _, [] => none
  | .characters (skip + 1), _ :: rest => readLongBasic? (.characters skip) rest
  | skip, c :: rest =>
    match longStep (skip matches .blanks) c rest with
    | .close text rest => some (text, rest)
    | .read c skip => consRead c (readLongBasic? skip rest)
    | .pass skip => readLongBasic? skip rest
    | .refuse => none

/-- Reads a string without escapes on several lines. -/
def readLongLiteral? : List Char → Option (List Char × List Char)
  | [] => none
  | c :: rest =>
    match closeLong? apostrophe (c :: rest) with
    | some closed => some closed
    | none =>
      if isPlain c ∨ c = '\n' then consRead c (readLongLiteral? rest)
      else if (newline? (c :: rest)).isSome then readLongLiteral? rest
      else none

/-- The text without a line break at its front. -/
def dropNewline (text : List Char) : List Char := (newline? text).getD text

/-- Reads a string on one line. -/
def readLine? (text : List Char) : Option (String × List Char) :=
  match text with
  | [] => none
  | c :: rest =>
    (if c = quote then readBasic? 0 rest
      else if c = apostrophe then readLiteral? rest
      else none).map fun (text, rest) ↦ (String.ofList text, rest)

def readText? (text : List Char) : Option (String × List Char) :=
  match (List.replicate 3 quote).isPrefixOf? text,
    (List.replicate 3 apostrophe).isPrefixOf? text with
  | some rest, _ => (readLongBasic? (.characters 0) (dropNewline rest)).map fun (text, rest) ↦
      (String.ofList text, rest)
  | _, some rest => (readLongLiteral? (dropNewline rest)).map fun (text, rest) ↦
      (String.ofList text, rest)
  | none, none => readLine? text

/-! ## Writing -/

/-- The forms of a written string. -/
inductive TextStyle where
  | basic
  | literal
  | longBasic
  | longLiteral
  deriving DecidableEq

/-- A character that only an escape can write, in every form. -/
def needsEscape (c : Char) : Bool := !isPlain c && c ≠ '\n'

/-- The most times that a mark stands in a row, given how often it does in front of the text. -/
def longestRun (mark : Char) : (before : Nat) → List Char → Nat
  | before, [] => before
  | before, c :: rest =>
    if c = mark then longestRun mark (before + 1) rest else max before (longestRun mark 0 rest)

/-- The first form that shows a text without escapes, or else the form to escape it in. -/
def styleOf (text : List Char) : TextStyle :=
  let escapes := text.any needsEscape
  let breaks := text.contains '\n'
  let backslashes := text.contains '\\'
  if !escapes && !backslashes && !breaks && !text.contains quote then .basic
  else if !escapes && !breaks && !text.contains apostrophe then .literal
  else if !escapes && !backslashes && longestRun quote 0 text ≤ 2 then .longBasic
  else if !escapes && longestRun apostrophe 0 text ≤ 2 then .longLiteral
  else if breaks then .longBasic
  else .basic

/-- The escape of a character by its name or code. -/
def escapeChars (c : Char) : List Char :=
  if c = Char.ofNat 8 then ['\\', 'b']
  else if c = '\t' then ['\\', 't']
  else if c = '\n' then ['\\', 'n']
  else if c = Char.ofNat 12 then ['\\', 'f']
  else if c = '\r' then ['\\', 'r']
  else if c = quote ∨ c = '\\' then ['\\', c]
  else ['\\', 'u', '0', '0', Char.toUpper (Hex.digit (c.toNat / 16)),
    Char.toUpper (Hex.digit (c.toNat % 16))]

/-- A text between quotation marks. Up to `room` marks in a row are no danger, and `run` of them
stand in front of the text; line breaks stay as they are when `long`. -/
def escapeText (long : Bool) (room : Nat) : (run : Nat) → List Char → List Char
  | _, [] => []
  | run, c :: rest =>
    if c = quote then
      if run < room then c :: escapeText long room (run + 1) rest
      else escapeChars c ++ escapeText long room 0 rest
    else if needsEscape c ∨ c = '\t' ∨ c = '\\' ∨ (c = '\n' ∧ !long) then
      escapeChars c ++ escapeText long room 0 rest
    else c :: escapeText long room 0 rest

/-- The line break behind opening marks, which is written when the text has line breaks itself. -/
def leadingBreak (text : List Char) : List Char := if text.contains '\n' then ['\n'] else []

def writeText (text : List Char) : List Char :=
  match styleOf text with
  | .basic => quote :: escapeText false 0 0 text ++ [quote]
  | .literal => apostrophe :: text ++ [apostrophe]
  | .longBasic =>
    List.replicate 3 quote ++ leadingBreak text ++ escapeText true 2 0 text ++
      List.replicate 3 quote
  | .longLiteral =>
    List.replicate 3 apostrophe ++ leadingBreak text ++ text ++ List.replicate 3 apostrophe

end DualSeal.Toml
