import DualSeal.Keys.PublicKey

/-!
# Key pairs

A key pair is a secret number and its multiple of the base point; the type holds the proof that
they belong together. Its text is PKCS#8: an outer structure, which any kind of private key has,
around an inner one for keys on curves.

The reader follows the structure's rules for optional parts: attributes may come before the outer
public key, which is there exactly in version 1 and is not compared with anything; what comes
after it must be context-specific. The inner public key, in contrast, must be that of the number.
-/

namespace DualSeal

/-- A private key with its public key. -/
structure KeyPair where
  secret : Nat
  publicKey : PublicKey
  secret_pos : 0 < secret
  secret_lt : secret < P256.n
  public_eq : P256.mul? secret P256.base = some publicKey.point

namespace KeyPair

def label : String := "PRIVATE KEY"

/-- The key pair of a number, which must be positive and below the order of the group. -/
def ofSecret? (secret : Nat) : Option KeyPair :=
  if pos : 0 < secret then
    if lt : secret < P256.n then
      match eq : P256.mul? secret P256.base with
      | some point => some ⟨secret, ⟨point⟩, pos, lt, eq⟩
      | none => none
    else none
  else none

instance : DecidableEq KeyPair := fun a b ↦
  decidable_of_iff (a.secret = b.secret) (by
    constructor
    · intro h
      obtain ⟨s, ⟨q⟩, _, _, ha⟩ := a
      obtain ⟨t, ⟨r⟩, _, _, hb⟩ := b
      obtain rfl : s = t := h
      obtain rfl : q = r := Option.some.inj (ha.symm.trans hb)
      rfl
    · rintro rfl
      rfl)

def type (_ : KeyPair) : KeyType := .p256

def id (pair : KeyPair) : KeyId := pair.publicKey.id

/-- The secret number in thirty-two bytes. -/
def secretBytes (pair : KeyPair) : Bytes := Bytes.ofNat P256.width pair.secret

/-- The inner structure: the number and the public key. -/
def innerDer (pair : KeyPair) : Bytes :=
  Der.encode Der.sequenceTag
    (Der.encode Der.integerTag [1] ++ Der.encode Der.octetStringTag pair.secretBytes ++
      Der.encode (Der.contextTag 1) (Der.encode Der.bitStringTag (0 :: pair.publicKey.bytes)))

/-- The outer structure, in version 0. -/
def toDer (pair : KeyPair) : Bytes :=
  Der.encode Der.sequenceTag
    (Der.encode Der.integerTag [0] ++ Der.encode Der.sequenceTag pair.type.algorithm ++
      Der.encode Der.octetStringTag pair.innerDer)

/-- The least number of bytes that a secret number may be written in. -/
def minSecretLength : Nat := 24

/-- The key pair of a secret number in 24 to 32 bytes. -/
def ofSecretBytes? (bytes : Bytes) : Option KeyPair :=
  if minSecretLength ≤ bytes.length ∧ bytes.length ≤ P256.width then ofSecret? (Bytes.toNat bytes)
  else none

/-- Whether the bytes after the first of an object identifier are arcs: the last byte of an arc has
its high bit clear, and from its fifth byte on an arc has but small bytes, so that it ends there.
`count` bytes of the current arc have been read. -/
def isArcs : Bytes → (count : Nat) → Bool
  | [], count => count = 0
  | b :: rest, count =>
    if 4 ≤ count ∧ 16 ≤ b.toNat then false
    else isArcs rest (if b.toNat < 0x80 then 0 else count + 1)

/-- Whether a byte string is the contents of an object identifier. -/
def isObjectId : Bytes → Bool
  | [] => false
  | first :: arcs =>
    first.toNat < 120 && 2 ≤ arcs.length && arcs.length ≤ 38 && isArcs arcs 0

/-- Reads the optional parameters in front of the inner structure's tail: explicitly tagged, and
of no further use. -/
def dropParameters? : List Der.Element → Option (List Der.Element)
  | [] => some []
  | element :: rest =>
    if Der.isContextTag element.tag ∧ Der.contextNumber element.tag = 0 then do
      let objectId ← if Der.isConstructed element.tag then
          Der.unwrap? Der.objectIdTag element.content else none
      if isObjectId objectId then some rest else none
    else some (element :: rest)

/-- Whether an element is context-specific with this number, simple or constructed. -/
def isContext (number : Nat) (element : Der.Element) : Bool :=
  Der.isContextTag element.tag && Der.contextNumber element.tag = number

/-- Reads the inner structure. -/
def ofInnerDer? (der : Bytes) : Option KeyPair := do
  let version :: secret :: rest ← Der.sequence? der | none
  if version = ⟨Der.integerTag, [1]⟩ ∧ secret.tag = Der.octetStringTag then
    let rest ← dropParameters? rest
    let pair ← ofSecretBytes? secret.content
    match rest.dropWhile (isContext 0) with
    | [] => return pair
    | [element] =>
      if element.tag = Der.contextTag 1 then
        let key ← Der.wholeBits? (← Der.unwrap? Der.bitStringTag element.content)
        if key = pair.publicKey.point.encode ∨ key = pair.publicKey.point.compress then
          return pair
        else none
      else none
    | _ => none
  else none

/-- Whether an element may stand behind the known parts of the outer structure: context-specific,
constructed, with one element inside. -/
def isExtension (element : Der.Element) : Bool :=
  Der.isContextTag element.tag && Der.isConstructed element.tag &&
    match Der.readAll? element.content with
    | some [_] => true
    | _ => false

/-- Whether the optional parts of the outer structure are in order: attributes, then a public key
exactly if `keyed`, then extensions. -/
def areOptions (keyed : Bool) (elements : List Der.Element) : Bool :=
  match elements.dropWhile (isContext 0) with
  | [] => !keyed
  | element :: rest =>
    if isContext 1 element then
      keyed && element.tag = 0x81 && (Der.wholeBits? element.content).isSome && rest.all isExtension
    else !keyed && (element :: rest).all isExtension

/-- Reads the outer structure, of version 0 or 1. -/
def ofDer? (der : Bytes) : Option KeyPair := do
  let version :: algorithm :: inner :: rest ← Der.sequence? der | none
  if (version = ⟨Der.integerTag, [0]⟩ ∨ version = ⟨Der.integerTag, [1]⟩) ∧
      algorithm = ⟨Der.sequenceTag, KeyType.p256.algorithm⟩ ∧ inner.tag = Der.octetStringTag ∧
      areOptions (version.content = [1]) rest then
    ofInnerDer? inner.content
  else none

def toPem (pair : KeyPair) : String := Pem.encodeText label pair.toDer

def ofPem (text : String) : Except KeyError KeyPair :=
  match readKeyBlock label text with
  | .error fault => .error (.invalidPem fault)
  | .ok der =>
    match ofDer? der with
    | some pair => .ok pair
    | none => .error (.invalidPem .body)

end KeyPair

end DualSeal
