import DualSeal.Crypto.Gcm
import DualSeal.Crypto.Hkdf
import DualSeal.Secret.Encryption

/-!
# Hybrid public key encryption of shares

HPKE (RFC 9180) in base mode: a Diffie-Hellman exchange on P-256 with a fresh key pair, keys
derived from it with HKDF-SHA256, and AES-256-GCM. The context text keeps these ciphertexts apart
from any others made with the same keys. A ciphertext is the fresh public key, uncompressed,
followed by the sealed share.
-/

namespace DualSeal.Hpke

/-- The context in which shares are encrypted. -/
def info : Bytes := Bytes.ofAscii "shardvault/share/v1"

/-- Bytes of the fresh public key in front of a ciphertext. -/
def encapsulationLength : Nat := 65

/-- Bytes that sealing adds. -/
def tagLength : Nat := 16

/-- The key encapsulation of the suite: P-256 with HKDF-SHA256. -/
def kemSuite : Bytes := Bytes.ofAscii "KEM" ++ Bytes.ofNat 2 0x0010

/-- The whole suite: that encapsulation, HKDF-SHA256 and AES-256-GCM. -/
def suite : Bytes :=
  Bytes.ofAscii "HPKE" ++ Bytes.ofNat 2 0x0010 ++ Bytes.ofNat 2 0x0001 ++ Bytes.ofNat 2 0x0002

/-- Extraction under a label of this version and suite. -/
def labeledExtract (suite salt : Bytes) (label : String) (material : Bytes) : Bytes :=
  Hkdf.extract salt (Bytes.ofAscii "HPKE-v1" ++ suite ++ Bytes.ofAscii label ++ material)

/-- Expansion under a label of this version and suite. -/
def labeledExpand (suite key : Bytes) (label : String) (context : Bytes) (length : Nat) : Bytes :=
  Hkdf.expand key
    (Bytes.ofNat 2 length ++ Bytes.ofAscii "HPKE-v1" ++ suite ++ Bytes.ofAscii label ++ context)
    length

/-- The shared secret of an exchange: from its outcome, the fresh key and the receiver's key. -/
def sharedSecret (exchange : P256.Point) (fresh receiver : Bytes) : Bytes :=
  let key := labeledExtract kemSuite [] "eae_prk" (Bytes.ofNat P256.width exchange.x)
  labeledExpand kemSuite key "shared_secret" (fresh ++ receiver) 32

/-- The key and the nonce of the message that a shared secret protects. -/
def schedule (secret : Bytes) : Bytes × Bytes :=
  let context := 0x00 :: (labeledExtract suite [] "psk_id_hash" [] ++
    labeledExtract suite [] "info_hash" info)
  let key := labeledExtract suite secret "secret" []
  (labeledExpand suite key "key" context 32, labeledExpand suite key "base_nonce" context 12)

/-- The ciphertext of a share under a given fresh key pair. -/
def encryptWith (fresh : KeyPair) (share : Share) (key : PublicKey) :
    Except ShareEncryptionError Bytes :=
  match P256.mul? fresh.secret key.point with
  | none => .error (.crypto "hpke seal failed: CryptoError(\"Invalid KEM public key\")")
  | some exchange =>
    let encapsulation := fresh.publicKey.bytes
    let (key, nonce) := schedule (sharedSecret exchange encapsulation key.bytes)
    .ok (encapsulation ++ Gcm.encrypt key nonce [] share.bytes)

/-- The fresh key pair that random bytes give: half as many bytes again as a secret number has,
reduced to the numbers there are, so that all are as good as equally likely. -/
def freshPair? (entropy : Entropy) : Option KeyPair :=
  KeyPair.ofSecret? (1 + Bytes.toNat (entropy.slice 0 48) % (P256.n - 1))

/-- Encrypts a share with a fresh key pair. -/
def encrypt (entropy : Entropy) (share : Share) (key : PublicKey) :
    Except ShareEncryptionError Bytes :=
  match freshPair? entropy with
  | some fresh => encryptWith fresh share key
  | none => .error (.crypto "hpke seal failed: InsufficientRandomness")

/-- Opens a ciphertext: its length, the fresh key, the length of the sealed part and the tag are
checked in this order. -/
def decrypt (ciphertext : Bytes) (pair : KeyPair) : Except ShareEncryptionError Share :=
  if ciphertext.length ≤ encapsulationLength then
    .error (.invalidInput ("ciphertext too short: " ++ toString ciphertext.length ++ " bytes"))
  else
    let encapsulation := ciphertext.take encapsulationLength
    let sealed := ciphertext.drop encapsulationLength
    match (P256.Point.ofUncompressed? encapsulation).bind (P256.mul? pair.secret) with
    | none =>
      .error (.crypto "hpke setup_receiver failed: CryptoError(\"Invalid KEM public key\")")
    | some exchange =>
      if sealed.length ≤ tagLength then .error (.crypto "hpke open failed: InvalidInput")
      else
        let (key, nonce) := schedule (sharedSecret exchange encapsulation pair.publicKey.bytes)
        match Gcm.decrypt? key nonce [] sealed with
        | some bytes => .ok ⟨bytes⟩
        | none => .error (.crypto "hpke open failed: OpenError")

/-- The encryption of shares by this suite. -/
def shareEncryption : ShareEncryption := ⟨encrypt, decrypt⟩

end DualSeal.Hpke
