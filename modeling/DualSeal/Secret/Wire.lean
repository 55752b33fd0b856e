import DualSeal.Encoding.Pem
import DualSeal.Secret.Basic
import DualSeal.Text.Blank
import DualSeal.Text.Utf8

/-!
# The written forms of a secret

The simple form joins segments `id(value)` by dashes. Nothing is escaped, so neither an id nor a
value may contain a dash or a parenthesis, and reading refuses a text as a whole at its first bad
segment. The armoured form wraps the simple one in a PEM block. A value is the base64 of a
ciphertext, whose alphabet avoids the three delimiters.
-/

namespace DualSeal

/-- What is wrong with a segment. -/
inductive SegmentFault where
  /-- There is no opening parenthesis, or more than one. -/
  | openings
  /-- There is no closing parenthesis, or more than one. -/
  | closings
  /-- Text follows the closing parenthesis, or it comes before the opening one. -/
  | unclosed
  | emptyKeyId
  | emptyValue
  deriving DecidableEq, Repr

def SegmentFault.message : SegmentFault → String
  | .openings => "expected exactly one '('"
  | .closings => "expected exactly one ')'"
  | .unclosed => "')' must close the segment"
  | .emptyKeyId => "empty key id"
  | .emptyValue => "empty value"

/-- What is wrong with an armoured secret, apart from the segments inside. -/
inductive ArmourFault where
  | block (fault : Pem.Fault)
  | label (found : String)
  | text (fault : Utf8.Fault)
  deriving DecidableEq, Repr

def ArmourFault.message : ArmourFault → String
  | .block fault => fault.message
  | .label found => "unexpected label: " ++ found
  | .text fault => fault.message

/-- Why a text is no secret, or a value no ciphertext. -/
inductive WireError where
  | emptyInput
  | malformedSegment (index : Nat) (fault : SegmentFault)
  | invalidValue (keyId : KeyId) (fault : Base64.Fault)
  | pem (fault : ArmourFault)
  | duplicateKeyId (index : Nat) (keyId : KeyId)
  deriving DecidableEq, Repr

def WireError.message : WireError → String
  | .emptyInput => "empty secret"
  | .malformedSegment index fault =>
    "malformed segment " ++ toString index ++ ": " ++ fault.message
  | .invalidValue keyId fault => "invalid value for key " ++ keyId.text ++ ": " ++ fault.message
  | .pem fault => "malformed PEM: " ++ fault.message
  | .duplicateKeyId index keyId =>
    "duplicate key id " ++ keyId.text ++ " at segment " ++ toString index

/-- The two written forms. -/
inductive WireFormat where
  | simple
  | pem
  deriving DecidableEq, Repr

namespace Shard

def segment (shard : Shard) : List Char :=
  shard.keyId.text.toList ++ '(' :: shard.value.toList ++ [')']

def ofSegment (segment : List Char) : Except SegmentFault Shard :=
  if segment.count '(' ≠ 1 then .error .openings
  else if segment.count ')' ≠ 1 then .error .closings
  else
    let id := segment.takeWhile (· ≠ '(')
    let rest := segment.drop (id.length + 1)
    if rest.getLast? ≠ some ')' then .error .unclosed
    else if id = [] then .error .emptyKeyId
    else if rest.dropLast = [] then .error .emptyValue
    else .ok ⟨⟨String.ofList id⟩, String.ofList rest.dropLast⟩

/-- The value that spells a ciphertext. -/
def encodeValue (ciphertext : Bytes) : String := Bytes.toLatin (Base64.encode ciphertext)

/-- The ciphertext that a shard's value spells. -/
def ciphertext (shard : Shard) : Except WireError Bytes :=
  match Base64.decode (Utf8.encodeString shard.value) with
  | .ok bytes => .ok bytes
  | .error fault => .error (.invalidValue shard.keyId fault)

end Shard

namespace Secret

def label : String := "ENCRYPTED SECRET"

/-- The simple form, as characters. -/
def simpleChars (secret : Secret) : List Char :=
  List.intercalate ['-'] (secret.shards.map Shard.segment)

def encodeSimple (secret : Secret) : String := String.ofList secret.simpleChars

/-- Reads segments from the one with number `index` on, after shards with the ids `seen`. -/
def readSegments (index : Nat) (seen : List KeyId) :
    List (List Char) → Except WireError (List Shard)
  | [] => .ok []
  | segment :: segments =>
    match Shard.ofSegment segment with
    | .error fault => .error (.malformedSegment index fault)
    | .ok shard =>
      if shard.keyId ∈ seen then .error (.duplicateKeyId index shard.keyId)
      else (shard :: ·) <$> readSegments (index + 1) (shard.keyId :: seen) segments

def ofSimpleChars (text : List Char) : Except WireError Secret :=
  if text = [] then .error .emptyInput
  else Secret.mk <$> readSegments 0 [] (text.splitOn '-')

def decodeSimple (text : String) : Except WireError Secret := ofSimpleChars text.toList

/-- The armoured form. -/
def encodePem (secret : Secret) : String := Pem.encodeText label (Utf8.encode secret.simpleChars)

def ofPemChars (text : List Char) : Except WireError Secret :=
  match Pem.decode (Utf8.encode text) with
  | .error fault => .error (.pem (.block fault))
  | .ok (found, body) =>
    if found = Bytes.ofAscii label then
      match Utf8.decode body with
      | .error fault => .error (.pem (.text fault))
      | .ok simple => ofSimpleChars simple
    else .error (.pem (.label (Bytes.toLatin found)))

def decodePem (text : String) : Except WireError Secret := ofPemChars text.toList

/-- A secret in one of the written forms. -/
def encode (secret : Secret) : WireFormat → String
  | .simple => secret.encodeSimple
  | .pem => secret.encodePem

/-- What an armoured secret begins with, after blanks. -/
def armour : List Char := "-----BEGIN".toList

/-- The form that a text is read in. -/
def formatOf (text : String) : WireFormat :=
  if armour.isPrefixOf (Text.trimStart text.toList) then .pem else .simple

/-- Reads either form. Blanks before a secret are skipped, and blanks after a simple one. -/
def decode (text : String) : Except WireError Secret :=
  let start := Text.trimStart text.toList
  match formatOf text with
  | .pem => ofPemChars start
  | .simple => ofSimpleChars (Text.trimEnd start)

end Secret

end DualSeal
