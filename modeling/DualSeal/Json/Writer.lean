import DualSeal.Encoding.Hex

/-!
# Writing JSON

Strings escape the quote, the backslash and the control characters, the latter with a letter where
there is one. Lists and objects are joined from parts that are already written, either on one line
or with every part on an indented line of its own.
-/

namespace DualSeal.Json

/-- A character as it stands inside a string. -/
def escapeChar (c : Char) : List Char :=
  let n := c.toNat
  if c = '"' then ['\\', '"']
  else if c = '\\' then ['\\', '\\']
  else if n = 8 then ['\\', 'b']
  else if n = 9 then ['\\', 't']
  else if n = 10 then ['\\', 'n']
  else if n = 12 then ['\\', 'f']
  else if n = 13 then ['\\', 'r']
  else if n < 32 then ['\\', 'u', '0', '0', Hex.digit (n / 16), Hex.digit (n % 16)]
  else [c]

/-- A string, as characters. -/
def textChars (text : String) : List Char :=
  '"' :: (text.toList.flatMap escapeChar ++ ['"'])

/-- A list on one line. -/
def list (items : List (List Char)) : List Char :=
  '[' :: (List.intercalate [','] items ++ [']'])

/-- An object on one line, from its keys and written values. -/
def object (fields : List (String × List Char)) : List Char :=
  '{' ::
    (List.intercalate [','] (fields.map fun (key, value) ↦ textChars key ++ ':' :: value) ++ ['}'])

/-- The blanks in front of a line at some depth: two for each level. -/
def indent (depth : Nat) : List Char := List.replicate (2 * depth) ' '

/-- Parts between brackets, each on a line of its own one level below `depth`; the brackets touch
when there is no part. -/
def indented (opening closing : Char) (depth : Nat) (parts : List (List Char)) : List Char :=
  if parts = [] then [opening, closing]
  else
    opening :: '\n' ::
      (List.intercalate [',', '\n'] (parts.map fun part ↦ indent (depth + 1) ++ part) ++
        '\n' :: (indent depth ++ [closing]))

/-- A list with its items on lines of their own. -/
def indentedList (depth : Nat) (items : List (List Char)) : List Char :=
  indented '[' ']' depth items

/-- An object with its fields on lines of their own. -/
def indentedObject (depth : Nat) (fields : List (String × List Char)) : List Char :=
  indented '{' '}' depth (fields.map fun (key, value) ↦ textChars key ++ ':' :: ' ' :: value)

def writeText (text : String) : String := String.ofList (textChars text)

def writeTexts (texts : List String) : String := String.ofList (list (texts.map textChars))

/-- An object of strings on one line. -/
def writeRecord (fields : List (String × String)) : String :=
  String.ofList (object (fields.map fun (key, value) ↦ (key, textChars value)))

end DualSeal.Json
