/-!
# Spans of time

A span is a whole number of milliseconds. It is written in seconds from one second on, with as many
decimals as it needs, in milliseconds below that, and as no nanoseconds when it is empty.
-/

namespace DualSeal

/-- A span of time in milliseconds. -/
abbrev Milliseconds := Nat

/-- The decimals of a part of a thousand, without zeros at the end. -/
def Milliseconds.decimals (part : Nat) : List Char :=
  let digits := [part / 100, part / 10 % 10, part % 10].map fun d ↦ Char.ofNat (48 + d)
  (digits.reverse.dropWhile (· = '0')).reverse

/-- A span in words. -/
def Milliseconds.text (span : Milliseconds) : String :=
  if span = 0 then "0ns"
  else if span < 1000 then toString span ++ "ms"
  else if span % 1000 = 0 then toString (span / 1000) ++ "s"
  else toString (span / 1000) ++ "." ++ String.ofList (decimals (span % 1000)) ++ "s"

end DualSeal
