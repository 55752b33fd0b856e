import DualSeal.Envelope.Basic

/-!
# Encrypting a secret

Encryption settles first whom the envelope is for: the recipients without repetitions, each with
the public key whose fingerprint it names. Nothing is drawn or encrypted before that plan stands,
and if any shard fails there is no envelope.
-/

namespace DualSeal

/-- A plaintext to encrypt: for the shared key, and for recipients in this order. -/
structure EncryptCommand where
  plaintext : String
  sharedKeyId : KeyId
  recipientKeyIds : List KeyId
  format : WireFormat

namespace Envelope

/-- A key id with the public key that it names. -/
structure Addressee where
  keyId : KeyId
  key : PublicKey

/-- Whom an envelope is for, and what goes into it. -/
structure Plan where
  shared : Addressee
  recipients : List Addressee
  tagged : Bytes

/-- The recipients without repetitions, behind those that `taken` holds; the shared key may not be
among them. -/
def distinctRecipients (shared : KeyId) (taken : List KeyId) :
    List KeyId → Except RecipientFault (List KeyId)
  | [] => .ok []
  | id :: ids =>
    if id = shared then .error (.sharedKey id)
    else if id ∈ taken then distinctRecipients shared taken ids
    else (id :: ·) <$> distinctRecipients shared (id :: taken) ids

/-- The recipients without repetitions: at least one, and the shared key not among them. -/
def recipients (shared : KeyId) (ids : List KeyId) : Except EnvelopeError (List KeyId) :=
  match distinctRecipients shared [] ids with
  | .error fault => .error (.invalidRecipients fault)
  | .ok [] => .error (.invalidRecipients .none)
  | .ok distinct => .ok distinct

/-- The public key that an id names: found, and of that fingerprint. -/
def resolve (lookup : KeyLookup) (id : KeyId) : Except EnvelopeError Addressee :=
  match lookup id with
  | .error error => .error (.keyResolution id (.lookup error))
  | .ok none => .error (.keyResolution id .notFound)
  | .ok (some key) =>
    if key.id = id then .ok ⟨id, key⟩ else .error (.keyResolution id (.mismatch key.id))

/-- The plan of an encryption: recipients first, then the keys in the order of the shards, and the
plaintext last. -/
def plan (command : EncryptCommand) (lookup : KeyLookup) : Except EnvelopeError Plan := do
  let ids ← recipients command.sharedKeyId command.recipientKeyIds
  let shared ← resolve lookup command.sharedKeyId
  let addressees ← ids.mapM (resolve lookup)
  let plaintext := Utf8.encodeString command.plaintext
  if plaintext = [] then .error (.encryption .emptyPlaintext)
  else return ⟨shared, addressees, addTag plaintext⟩

/-- The shard of a share for an addressee. -/
def shardFor (encryption : ShareEncryption) (entropy : Entropy) (share : Share)
    (addressee : Addressee) : Except EnvelopeError Shard :=
  match encryption.encrypt entropy share addressee.key with
  | .ok ciphertext => .ok ⟨addressee.keyId, Shard.encodeValue ciphertext⟩
  | .error error => .error (.encryption (.shard addressee.keyId error))

/-- The shards of one share for addressees, drawing from the supplies from `index` on. -/
def shardsFor (encryption : ShareEncryption) (entropy : EntropySource) (share : Share)
    (index : Nat) : List Addressee → Except EnvelopeError (List Shard)
  | [] => .ok []
  | addressee :: rest => do
    let shard ← shardFor encryption (entropy index) share addressee
    let shards ← shardsFor encryption entropy share (index + 1) rest
    return shard :: shards

/-- The two shares of a tagged plaintext: the one for the shared key, and the recipients'. -/
def splitInTwo (threshold : ThresholdScheme) (entropy : Entropy) (tagged : Bytes) :
    Except EnvelopeError (Share × Share) :=
  match threshold.split entropy tagged shareCount shareThreshold with
  | .error error => .error (.encryption (.split error))
  | .ok [first, second] => .ok (first, second)
  | .ok shares => .error (.encryption (.shareCount shares.length))

/-- The secret that a plan makes: the shard for the shared key first, then the recipients'. -/
def fulfil (envelope : Envelope) (entropy : EntropySource) (plan : Plan) :
    Except EnvelopeError Secret := do
  let (first, second) ← splitInTwo envelope.threshold (entropy 0) plan.tagged
  let shared ← shardFor envelope.encryption (entropy 1) first plan.shared
  let shards ← shardsFor envelope.encryption entropy second 2 plan.recipients
  return ⟨shared :: shards⟩

/-- Encrypts a plaintext into a written secret. -/
def encryptSecret (envelope : Envelope) (entropy : EntropySource) (command : EncryptCommand)
    (lookup : KeyLookup) : Except EnvelopeError String := do
  let plan ← plan command lookup
  let secret ← envelope.fulfil entropy plan
  return secret.encode command.format

end Envelope

end DualSeal
