import DualSeal.Keys.Lookup
import DualSeal.Secret.Encryption
import DualSeal.Secret.Wire
import DualSeal.Text.Duration

/-!
# What can go wrong with an envelope

No error holds any part of a plaintext, a share or a private key.
-/

namespace DualSeal

/-- Why there is no public key for an id. -/
inductive ResolutionFault where
  | lookup (error : LookupError)
  | notFound
  /-- The key that was found has another fingerprint. -/
  | mismatch (found : KeyId)
  deriving DecidableEq, Repr

def ResolutionFault.message : ResolutionFault → String
  | .lookup error => error.message
  | .notFound => "public key not found"
  | .mismatch found => "fingerprint mismatch: got " ++ found.text

/-- The number of shares that a secret is cut into. -/
def shareCount : Nat := 2

/-- The number of shares that give a secret back. -/
def shareThreshold : Nat := 2

/-- Why a share is not encrypted or not opened. -/
inductive EncryptionFault where
  | emptyPlaintext
  | split (error : ThresholdError)
  /-- The scheme made another number of shares than it was asked for. -/
  | shareCount (count : Nat)
  | shard (keyId : KeyId) (error : ShareEncryptionError)
  /-- The server would not open the shard of the shared key. -/
  | refused (keyId : KeyId) (reason : String)
  deriving DecidableEq, Repr

def EncryptionFault.message : EncryptionFault → String
  | .emptyPlaintext => "plaintext must not be empty"
  | .split error => "split failed: " ++ error.message
  | .shareCount count =>
    "expected " ++ toString DualSeal.shareCount ++ " shares, got " ++ toString count
  | .shard keyId error => "shard " ++ keyId.text ++ ": " ++ error.message
  | .refused keyId reason => "server refused shard " ++ keyId.text ++ ": " ++ reason

/-- Which half of a secret cannot be had. -/
inductive MissingShare where
  | noRequester
  | noMediator
  | noSharedShard (keyId : KeyId)
  deriving DecidableEq, Repr

def MissingShare.message : MissingShare → String
  | .noRequester => "no local private key to open a member shard"
  | .noMediator => "server mediator unavailable for shared shard"
  | .noSharedShard keyId => "no shard for shared key " ++ keyId.text

/-- Why two shares give no plaintext. -/
inductive RecombinationFault where
  | scheme (error : ThresholdError)
  /-- What comes out does not carry its own tag. -/
  | unrelated
  | notText
  deriving DecidableEq, Repr

def RecombinationFault.message : RecombinationFault → String
  | .scheme error => error.message
  | .unrelated => "shares do not belong to the same secret"
  | .notText => "reconstructed secret is not valid UTF-8"

/-- Why a list of recipients is refused. -/
inductive RecipientFault where
  | sharedKey (keyId : KeyId)
  | none
  deriving DecidableEq, Repr

def RecipientFault.message : RecipientFault → String
  | .sharedKey keyId => "shared key " ++ keyId.text ++ " cannot also be a recipient"
  | .none => "at least one recipient is required"

/-- Why a secret is not encrypted or not decrypted. -/
inductive EnvelopeError where
  | format (error : WireError)
  | keyResolution (keyId : KeyId) (fault : ResolutionFault)
  | encryption (fault : EncryptionFault)
  | noMatchingShard (keyId : KeyId)
  | insufficientShares (missing : MissingShare)
  | recombination (fault : RecombinationFault)
  | network (reason : String)
  | cancelled (timeout : Milliseconds)
  | invalidRecipients (fault : RecipientFault)
  deriving DecidableEq, Repr

def EnvelopeError.message : EnvelopeError → String
  | .format error => "malformed secret: " ++ error.message
  | .keyResolution keyId fault =>
    "cannot resolve public key " ++ keyId.text ++ ": " ++ fault.message
  | .encryption fault => "encryption error: " ++ fault.message
  | .noMatchingShard keyId => "no shard for key " ++ keyId.text
  | .insufficientShares missing => "insufficient shares: " ++ missing.message
  | .recombination fault => "recombination failed: " ++ fault.message
  | .network reason => "server mediator network error: " ++ reason
  | .cancelled timeout => "server mediator call cancelled after " ++ timeout.text
  | .invalidRecipients fault => "invalid recipients: " ++ fault.message

end DualSeal
