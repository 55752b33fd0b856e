import DualSeal.Text.Numeral

/-!
# Socket addresses

A host, which is an IPv4 or IPv6 address, with a port. An IPv6 host may carry a scope, which zero
leaves open. Reading follows the usual spellings: an IPv6 address may shorten one run of zeros and
may end in an IPv4 address. Writing is canonical: in lower case, without leading zeros, with the
first of the longest runs of at least two zeros shortened.
-/

namespace DualSeal

structure Ipv4 where
  a : UInt8
  b : UInt8
  c : UInt8
  d : UInt8
  deriving DecidableEq

/-- An IPv6 address: eight groups. -/
structure Ipv6 where
  groups : List UInt16
  length_eq : groups.length = 8
  deriving DecidableEq

/-- A host with a port. -/
inductive SocketAddress where
  | v4 (host : Ipv4) (port : UInt16)
  | v6 (host : Ipv6) (scope : UInt32) (port : UInt16)
  deriving DecidableEq

/-- Reads one character. -/
def SocketAddress.readMark? (mark : Char) : List Char → Option (List Char)
  | [] => none
  | c :: rest => if c = mark then some rest else none

open SocketAddress (readMark?)

/-! ## IPv4 -/

namespace Ipv4

/-- Reads a part of an address, which has no leading zeros. -/
def octet? (text : List Char) : Option (UInt8 × List Char) := do
  let found := text.takeWhile (Numeral.isDigit 10)
  if 1 < found.length ∧ found.head? = some '0' then none
  else
    let (value, rest) ← Numeral.read? 10 256 text
    return (UInt8.ofNat value, rest)

def read? (text : List Char) : Option (Ipv4 × List Char) := do
  let (a, rest) ← octet? text
  let (b, rest) ← octet? (← readMark? '.' rest)
  let (c, rest) ← octet? (← readMark? '.' rest)
  let (d, rest) ← octet? (← readMark? '.' rest)
  return (⟨a, b, c, d⟩, rest)

def chars (host : Ipv4) : List Char :=
  List.intercalate ['.']
    ([host.a, host.b, host.c, host.d].map fun part ↦ Numeral.write 10 part.toNat)

/-- The address as the last two groups of an IPv6 address. -/
def groups (host : Ipv4) : List UInt16 :=
  [UInt16.ofNat (host.a.toNat * 256 + host.b.toNat),
    UInt16.ofNat (host.c.toNat * 256 + host.d.toNat)]

/-- The address that is a number below 2^32. -/
def ofNat (n : Nat) : Ipv4 :=
  ⟨UInt8.ofNat (n / 0x1000000), UInt8.ofNat (n / 0x10000), UInt8.ofNat (n / 0x100), UInt8.ofNat n⟩

/-- The address that two groups hold. -/
def ofGroups (first second : UInt16) : Ipv4 :=
  ⟨UInt8.ofNat (first.toNat / 256), UInt8.ofNat first.toNat, UInt8.ofNat (second.toNat / 256),
    UInt8.ofNat second.toNat⟩

end Ipv4

/-! ## IPv6 -/

namespace Ipv6

/-- Reads a group of at most four digits. -/
def group? (text : List Char) : Option (UInt16 × List Char) :=
  if 4 < (text.takeWhile (Numeral.isDigit 16)).length then none
  else (Numeral.read? 16 0x10000 text).map fun (value, rest) ↦ (UInt16.ofNat value, rest)

/-- Groups that were read. -/
structure Run where
  groups : List UInt16
  /-- Whether they end in an IPv4 address. -/
  endsInIpv4 : Bool
  rest : List Char

/-- Reads up to `room` groups with colons between them; an IPv4 address takes the place of the last
two. Reading stops in front of a colon that no group follows. -/
def readRun : (room : Nat) → (first : Bool) → List Char → Run
  | 0, _, text => ⟨[], false, text⟩
  | room + 1, first, text =>
    match if first then some text else readMark? ':' text with
    | none => ⟨[], false, text⟩
    | some start =>
      match if room = 0 then none else Ipv4.read? start with
      | some (host, rest) => ⟨host.groups, true, rest⟩
      | none =>
        match group? start with
        | none => ⟨[], false, text⟩
        | some (group, rest) =>
          let run := readRun room false rest
          ⟨group :: run.groups, run.endsInIpv4, run.rest⟩

def ofGroups? (groups : List UInt16) : Option Ipv6 :=
  if h : groups.length = 8 then some ⟨groups, h⟩ else none

/-- Reads an address. Two colons stand for one zero group at least, and no IPv4 address may stand in
front of them. -/
def read? (text : List Char) : Option (Ipv6 × List Char) := do
  let head := readRun 8 true text
  if head.groups.length = 8 then return (← ofGroups? head.groups, head.rest)
  else if head.endsInIpv4 then none
  else
    let rest ← readMark? ':' (← readMark? ':' head.rest)
    let tail := readRun (7 - head.groups.length) true rest
    let zeros := List.replicate (8 - head.groups.length - tail.groups.length) 0
    return (← ofGroups? (head.groups ++ zeros ++ tail.groups), tail.rest)

/-- Groups with colons between them. -/
def groupChars (groups : List UInt16) : List Char :=
  List.intercalate [':'] (groups.map fun group ↦ Numeral.write 16 group.toNat)

/-- The number of zeros at the front. -/
def leadingZeros (groups : List UInt16) : Nat := (groups.takeWhile (· = 0)).length

/-- The first of the longest runs of zeros from position `start` on, as its position and length. -/
def longestZeros (start : Nat) : List UInt16 → Nat × Nat
  | [] => (start, 0)
  | group :: groups =>
    let here := leadingZeros (group :: groups)
    let later := longestZeros (start + 1) groups
    if later.2 ≤ here then (start, here) else later

/-- Groups with the first of the longest runs of zeros shortened. -/
def shortChars (groups : List UInt16) : List Char :=
  let (start, length) := longestZeros 0 groups
  if length ≤ 1 then groupChars groups
  else groupChars (groups.take start) ++ ':' :: ':' :: groupChars (groups.drop (start + length))

/-- The written address. One that holds an IPv4 address shows it. -/
def chars (host : Ipv6) : List Char :=
  match host.groups with
  | [0, 0, 0, 0, 0, 0xFFFF, first, second] =>
    "::ffff:".toList ++ (Ipv4.ofGroups first second).chars
  | groups => shortChars groups

end Ipv6

/-! ## Addresses with ports -/

namespace SocketAddress

def port? (text : List Char) : Option (UInt16 × List Char) := do
  let (value, rest) ← Numeral.read? 10 0x10000 (← readMark? ':' text)
  return (UInt16.ofNat value, rest)

/-- Reads a scope where there is one; it is zero otherwise. -/
def readScope (text : List Char) : UInt32 × List Char :=
  match readMark? '%' text with
  | none => (0, text)
  | some digits =>
    match Numeral.read? 10 0x100000000 digits with
    | none => (0, text)
    | some (value, rest) => (UInt32.ofNat value, rest)

/-- Reads an IPv4 host with a port. -/
def readV4? (text : List Char) : Option (SocketAddress × List Char) := do
  let (host, rest) ← Ipv4.read? text
  let (port, rest) ← port? rest
  return (.v4 host port, rest)

/-- Reads an IPv6 host in brackets with a port. -/
def readV6? (text : List Char) : Option (SocketAddress × List Char) := do
  let (host, rest) ← Ipv6.read? (← readMark? '[' text)
  let (scope, rest) := readScope rest
  let (port, rest) ← port? (← readMark? ']' rest)
  return (.v6 host scope port, rest)

/-- Reads an address that is the whole text. -/
def ofText? (text : String) : Option SocketAddress :=
  match (readV4? text.toList).or (readV6? text.toList) with
  | some (address, []) => some address
  | _ => none

def chars : SocketAddress → List Char
  | .v4 host port => host.chars ++ ':' :: Numeral.write 10 port.toNat
  | .v6 host scope port =>
    '[' :: host.chars ++ (if scope = 0 then [] else '%' :: Numeral.write 10 scope.toNat) ++
      ']' :: ':' :: Numeral.write 10 port.toNat

def text (address : SocketAddress) : String := String.ofList address.chars

end SocketAddress

end DualSeal
