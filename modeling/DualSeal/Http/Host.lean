import DualSeal.Http.Escape
import DualSeal.Network.Address

/-!
# Hosts in URLs

A host is an IPv6 address in brackets, an IPv4 address, or a name. IPv4 addresses have looser
spellings here than elsewhere: their numbers may be octal or hexadecimal, and the last one fills all
bytes that are left. A name whose last part is a number can only be such an address.

However a host is spelled, it is written in one way: addresses canonically, and names in ASCII and
in lower case. How other characters are spelled in ASCII is a matter of large tables, which are not
part of this: whoever reads a host brings its own.
-/

namespace DualSeal.Http

/-- A character that stands in no name. -/
def isForbidden (c : Char) : Bool :=
  c.toNat ≤ 0x20 || c.toNat = 0x7F ||
    List.contains ['#', '%', '/', ':', '<', '>', '?', '@', '[', '\\', ']', '^', '|'] c

/-- The number that digits of a base spell; none at all spell zero. -/
def numberIn? (base : Nat) (digits : List Char) : Option Nat :=
  if digits.all (Numeral.isDigit base) then some (Numeral.value base digits) else none

/-- A number in an address: hexadecimal behind `0x`, octal behind another leading zero. -/
def addressNumber? : List Char → Option Nat
  | [] => none
  | ['0'] => some 0
  | '0' :: c :: rest =>
    if c = 'x' ∨ c = 'X' then numberIn? 16 rest else numberIn? 8 (c :: rest)
  | digits => numberIn? 10 digits

/-- The parts of a name that dots separate; a dot at the end does not count. -/
def nameParts (name : List Char) : List (List Char) :=
  let parts := name.splitOn '.'
  if parts.getLast? = some [] then parts.dropLast else parts

/-- Whether a name can only be an address. -/
def endsInNumber (parts : List (List Char)) : Bool :=
  match parts.getLast? with
  | none | some [] => false
  | some last => last.all (Numeral.isDigit 10) || (addressNumber? last).isSome

/-- The IPv4 address that the parts of a name spell: all numbers but the last are bytes, and the
last has the room of the bytes that are left. -/
def ipv4? (parts : List (List Char)) : Option Ipv4 := do
  let numbers ← parts.mapM addressNumber?
  let last ← numbers.getLast?
  let front := numbers.dropLast
  let room := Nat.pow 256 (4 - front.length)
  if numbers.length ≤ 4 ∧ front.all (· < 256) ∧ last < room then
    return .ofNat (front.foldl (fun n part ↦ n * 256 + part) 0 * room + last)
  else none

/-- Spells names in ASCII, where that can be done: those with other characters, and those with parts
that are spelled so already. -/
abbrev NameSpelling := String → Option String

/-- No tables: only a name that spells itself is read. -/
def NameSpelling.bare : NameSpelling := fun _ ↦ none

/-- A part of a name that spells itself in ASCII: it has no other characters, and does not stand for
any. -/
def isPlainPart (part : List Char) : Bool :=
  part.all (·.toNat < 0x80) && !"xn--".toList.isPrefixOf (part.map Char.toLower)

/-- A name in ASCII and in lower case. -/
def asciiName? (spelling : NameSpelling) (name : String) : Option (List Char) :=
  if (name.toList.splitOn '.').all isPlainPart then some (name.toList.map Char.toLower)
  else (spelling name).map String.toList

/-- The name or IPv4 address that a text spells. Escapes count as what they stand for. -/
def name? (spelling : NameSpelling) (text : List Char) : Option (List Char) :=
  match Utf8.decodeString (unescape (Utf8.encode text)) with
  | .error _ => none
  | .ok decoded => do
    let name ← asciiName? spelling decoded
    if name = [] ∨ name.any isForbidden then none
    else if endsInNumber (nameParts name) then return (← ipv4? (nameParts name)).chars
    else return name

/-- The IPv6 address that a text spells in front of a closing bracket, in brackets. -/
def bracketed? (text : List Char) : Option (List Char) :=
  if text.getLast? = some ']' then
    match Ipv6.read? text.dropLast with
    | some (host, []) => some ('[' :: Ipv6.shortChars host.groups ++ [']'])
    | _ => none
  else none

def host? (spelling : NameSpelling) : List Char → Option (List Char)
  | '[' :: rest => bracketed? rest
  | text => name? spelling text

/-- The colon and the port that a text spells behind a host: a number below 2^16. The port that a
scheme has anyway is left out, and none is spelled by nothing or a lone colon. -/
def port? (ownPort : Nat) (text : List Char) : Option (List Char) :=
  match numberIn? 10 (text.drop 1) with
  | none => none
  | some port =>
    if 0x10000 ≤ port then none
    else if text.drop 1 = [] ∨ port = ownPort then some []
    else some (':' :: Numeral.write 10 port)

/-- The host at the front of a text, and what follows it: colons inside brackets are its own. -/
def splitHost : (bracketed : Bool) → List Char → List Char × List Char
  | _, [] => ([], [])
  | bracketed, c :: rest =>
    if c = ':' ∧ !bracketed then ([], c :: rest)
    else
      let (host, port) := splitHost (c = '[' || (bracketed && c ≠ ']')) rest
      (c :: host, port)

/-- The host that a text spells, with its port. -/
def server? (spelling : NameSpelling) (ownPort : Nat) (text : List Char) :
    Option (List Char) := do
  let (host, rest) := splitHost false text
  return (← host? spelling host) ++ (← port? ownPort rest)

end DualSeal.Http
