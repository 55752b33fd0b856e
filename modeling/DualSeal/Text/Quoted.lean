import DualSeal.Text.Visible

/-!
# Quoted text

A text in quotes, for people to read: quotes, backslashes and the common controls are written with a
backslash, every other character that cannot be seen by its code point.
-/

namespace DualSeal.Text

/-- A character inside quotes. -/
def quoteChar (c : Char) : List Char :=
  if c = Char.ofNat 0 then ['\\', '0']
  else if c = '\t' then ['\\', 't']
  else if c = '\r' then ['\\', 'r']
  else if c = '\n' then ['\\', 'n']
  else if c = '"' ∨ c = '\\' then ['\\', c]
  else if isVisible c then [c]
  else ['\\', 'u', '{'] ++ Nat.toDigits 16 c.toNat ++ ['}']

def quoted (text : String) : String :=
  String.ofList ('"' :: (text.toList.flatMap quoteChar ++ ['"']))

end DualSeal.Text
