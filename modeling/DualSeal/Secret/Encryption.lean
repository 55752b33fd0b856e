import DualSeal.Keys.KeyPair
import DualSeal.Threshold.Scheme

/-!
# Share encryption

A share encryption turns a share into a ciphertext that one key pair opens. Which key that is,
and where it comes from, is for the caller to say. Encryption draws random bytes, which are an
argument.
-/

namespace DualSeal

/-- Why a share is not encrypted, or a ciphertext not opened. -/
inductive ShareEncryptionError where
  | crypto (reason : String)
  | invalidInput (reason : String)
  | unsupportedKey (type : KeyType)
  deriving DecidableEq, Repr

def ShareEncryptionError.message : ShareEncryptionError → String
  | .crypto reason => "crypto error: " ++ reason
  | .invalidInput reason => "invalid input: " ++ reason
  | .unsupportedKey type => "unsupported key type: " ++ type.name

/-- A way to encrypt shares for public keys, and to open them with key pairs. -/
structure ShareEncryption where
  encrypt : Entropy → Share → PublicKey → Except ShareEncryptionError Bytes
  decrypt : Bytes → KeyPair → Except ShareEncryptionError Share

end DualSeal
