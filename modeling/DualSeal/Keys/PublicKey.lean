import DualSeal.Crypto.P256
import DualSeal.Encoding.Der
import DualSeal.Encoding.Pem
import DualSeal.Keys.KeyId
import DualSeal.Text.Utf8

/-!
# Public keys

A public key is a point of the curve. It is read from any encoding of the point and kept as the
point itself, so that its bytes, its text and its id do not depend on how it was written.
-/

namespace DualSeal

inductive KeyType where
  | p256
  deriving DecidableEq, Repr

def KeyType.name : KeyType → String
  | .p256 => "P256"

/-- Why a text holds no key. -/
inductive KeyTextFault where
  /-- The text is no encapsulated block. -/
  | block (fault : Pem.Fault)
  /-- The block has another label. -/
  | label
  /-- The body of the block is not the structure of a key. -/
  | body
  deriving DecidableEq, Repr

def KeyTextFault.message : KeyTextFault → String
  | .block fault => fault.message
  | .label => "unexpected label"
  | .body => "malformed key"

/-- Why key material is refused. -/
inductive KeyError where
  | invalidPem (fault : KeyTextFault)
  /-- The bytes encode no point other than the one at infinity. -/
  | invalidKey
  deriving DecidableEq, Repr

def KeyError.message : KeyError → String
  | .invalidPem fault => "invalid PEM: " ++ fault.message
  | .invalidKey => "invalid key bytes: not a point of the curve"

/-- The body of the only block of a text, which must have this label. -/
def readKeyBlock (label text : String) : Except KeyTextFault Bytes :=
  match Pem.decode (Utf8.encodeString text) with
  | .error fault => .error (.block fault)
  | .ok (found, body) => if found = Bytes.ofAscii label then .ok body else .error .label

/-- The object identifiers of an elliptic curve key and of the curve P-256, as elements. -/
def KeyType.algorithm : KeyType → Bytes
  | .p256 =>
    Der.encode Der.objectIdTag [0x2A, 0x86, 0x48, 0xCE, 0x3D, 0x02, 0x01] ++
      Der.encode Der.objectIdTag [0x2A, 0x86, 0x48, 0xCE, 0x3D, 0x03, 0x01, 0x07]

/-- A key to encrypt to. -/
structure PublicKey where
  point : P256.Point
  deriving DecidableEq

namespace PublicKey

def label : String := "PUBLIC KEY"

def type (_ : PublicKey) : KeyType := .p256

/-- The stored form: the uncompressed point. -/
def bytes (key : PublicKey) : Bytes := key.point.encode

/-- The fingerprint of the stored form. -/
def id (key : PublicKey) : KeyId := KeyId.fingerprint key.bytes

/-- Reads any encoding of a point. -/
def ofBytes (bytes : Bytes) : Except KeyError PublicKey :=
  match P256.Point.decode? bytes with
  | some point => .ok ⟨point⟩
  | none => .error .invalidKey

/-- The structure that names the algorithm and holds the point. -/
def toDer (key : PublicKey) : Bytes :=
  Der.encode Der.sequenceTag
    (Der.encode Der.sequenceTag key.type.algorithm ++ Der.encode Der.bitStringTag (0 :: key.bytes))

/-- Reads that structure; the point may be in any encoding. -/
def ofDer? (der : Bytes) : Option PublicKey := do
  let [algorithm, bits] ← Der.sequence? der | none
  if algorithm = ⟨Der.sequenceTag, KeyType.p256.algorithm⟩ ∧ bits.tag = Der.bitStringTag then
    let point ← P256.Point.decode? (← Der.wholeBits? bits.content)
    return ⟨point⟩
  else none

def toPem (key : PublicKey) : String := Pem.encodeText label key.toDer

def ofPem (text : String) : Except KeyError PublicKey :=
  match readKeyBlock label text with
  | .error fault => .error (.invalidPem fault)
  | .ok der =>
    match ofDer? der with
    | some key => .ok key
    | none => .error (.invalidPem .body)

end PublicKey

end DualSeal
