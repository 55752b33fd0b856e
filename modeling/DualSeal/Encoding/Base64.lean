import DualSeal.Bytes

/-!
# Base64

The standard alphabet with padding. Reading is strict: the padding is required, white space is
foreign, and the bits that the last symbol carries beyond the last byte must be zero, so a byte
string has exactly one spelling. A refusal says where the text goes wrong.

Quads before the last hold four symbols each and are read in order; only the last one may be
padded or short, and it has rules of its own.
-/

namespace DualSeal.Base64

/-- Why a text is not the spelling of any byte string. -/
inductive Fault where
  /-- A byte that may not stand where it does. -/
  | invalidByte (offset : Nat) (byte : UInt8)
  /-- The text ends after a number of symbols that no byte string has. -/
  | invalidLength (length : Nat)
  /-- The last symbol carries bits beyond the last byte. -/
  | invalidLastSymbol (offset : Nat) (byte : UInt8)
  /-- The last quad is not filled up. -/
  | invalidPadding
  deriving DecidableEq, Repr

def Fault.message : Fault → String
  | .invalidByte offset byte =>
    "Invalid symbol " ++ toString byte.toNat ++ ", offset " ++ toString offset ++ "."
  | .invalidLength length => "Invalid input length: " ++ toString length
  | .invalidLastSymbol offset byte =>
    "Invalid last symbol " ++ toString byte.toNat ++ ", offset " ++ toString offset ++ "."
  | .invalidPadding => "Invalid padding"

/-- The symbol of a number below sixty-four. -/
def symbol (n : Nat) : UInt8 :=
  if n < 26 then UInt8.ofNat (65 + n)
  else if n < 52 then UInt8.ofNat (71 + n)
  else if n < 62 then UInt8.ofNat (n - 4)
  else if n = 62 then 43
  else 47

/-- The number a symbol stands for. -/
def value? (b : UInt8) : Option Nat :=
  let n := b.toNat
  if 65 ≤ n ∧ n ≤ 90 then some (n - 65)
  else if 97 ≤ n ∧ n ≤ 122 then some (n - 71)
  else if 48 ≤ n ∧ n ≤ 57 then some (n + 4)
  else if n = 43 then some 62
  else if n = 47 then some 63
  else none

def pad : UInt8 := 61

/-- The four symbols of three bytes. -/
def quad (a b c : UInt8) : Bytes :=
  [symbol (a.toNat / 4), symbol (a.toNat % 4 * 16 + b.toNat / 16),
    symbol (b.toNat % 16 * 4 + c.toNat / 64), symbol (c.toNat % 64)]

/-- The spelling of a byte string. -/
def encode : Bytes → Bytes
  | [] => []
  | [a] => [symbol (a.toNat / 4), symbol (a.toNat % 4 * 16), pad, pad]
  | [a, b] =>
    [symbol (a.toNat / 4), symbol (a.toNat % 4 * 16 + b.toNat / 16), symbol (b.toNat % 16 * 4), pad]
  | a :: b :: c :: rest => quad a b c ++ encode rest

/-- The three bytes of four symbol values. -/
def bytesOfQuad (a b c d : Nat) : Bytes :=
  [UInt8.ofNat (a * 4 + b / 16), UInt8.ofNat (b % 16 * 16 + c / 4), UInt8.ofNat (c % 4 * 64 + d)]

/-- The value of a symbol at `offset`. -/
def valueAt (offset : Nat) (b : UInt8) : Except Fault Nat :=
  match value? b with
  | some n => .ok n
  | none => .error (.invalidByte offset b)

/-- What the last quad holds: the values of its leading symbols, and how many padding signs follow
them. -/
structure Tail where
  values : List Nat
  padding : Nat

/-- Reads the one to four bytes of the last quad, the first of which stands at `offset`: symbols,
then padding signs, the first of which has at least two symbols before it. -/
def readTail (offset : Nat) : Bytes → (position : Nat) → Except Fault Tail
  | [], _ => .ok ⟨[], 0⟩
  | b :: rest, position =>
    if b = pad then
      if position < 2 then .error (.invalidByte (offset + position) b)
      else if rest.all (· = pad) then .ok ⟨[], rest.length + 1⟩
      else .error (.invalidByte (offset + position) b)
    else do
      let n ← valueAt (offset + position) b
      let tail ← readTail offset rest (position + 1)
      return ⟨n :: tail.values, tail.padding⟩

/-- The bytes of the last quad, which begins at `offset` and is `quad`. -/
def decodeLast (offset : Nat) (quad : Bytes) : Except Fault Bytes := do
  let tail ← readTail offset quad 0
  let last := quad.getD (tail.values.length - 1) 0
  let lastAt := offset + (tail.values.length - 1)
  match tail.values with
  | [] | [_] => .error (.invalidLength (offset + tail.values.length))
  | [a, b] =>
    if tail.padding ≠ 2 then .error .invalidPadding
    else if b % 16 ≠ 0 then .error (.invalidLastSymbol lastAt last)
    else .ok [UInt8.ofNat (a * 4 + b / 16)]
  | [a, b, c] =>
    if tail.padding ≠ 1 then .error .invalidPadding
    else if c % 4 ≠ 0 then .error (.invalidLastSymbol lastAt last)
    else .ok [UInt8.ofNat (a * 4 + b / 16), UInt8.ofNat (b % 16 * 16 + c / 4)]
  | a :: b :: c :: d :: _ => .ok (bytesOfQuad a b c d)

/-- Reads quads from `offset` on. -/
def decodeFrom (offset : Nat) : Bytes → Except Fault Bytes
  | [] => .ok []
  | a :: b :: c :: d :: e :: rest => do
    let va ← valueAt offset a
    let vb ← valueAt (offset + 1) b
    let vc ← valueAt (offset + 2) c
    let vd ← valueAt (offset + 3) d
    let bytes ← decodeFrom (offset + 4) (e :: rest)
    return bytesOfQuad va vb vc vd ++ bytes
  | quad => decodeLast offset quad

/-- Reads a spelling back. A single byte left over after whole quads can start no quad, so when it
is no symbol and no padding sign it is reported before anything else. -/
def decode (text : Bytes) : Except Fault Bytes :=
  match text.getLast? with
  | some last =>
    if text.length % 4 = 1 ∧ last ≠ pad ∧ value? last = none then
      .error (.invalidByte (text.length - 1) last)
    else decodeFrom 0 text
  | none => .ok []

end DualSeal.Base64
