import DualSeal.Mediator.Basic
import DualSeal.Secret.Encryption
import DualSeal.Secret.Wire

/-!
# A mediator that holds the shared key

It refuses every other key id before it looks at the value.
-/

namespace DualSeal

/-- Why a shard is not opened. -/
inductive LocalMediatorError where
  | foreignKey (keyId : KeyId)
  | invalidValue (error : WireError)
  | decryption
  deriving DecidableEq, Repr

/-- The error in words. The reason of a failed decryption is not disclosed. -/
def LocalMediatorError.message : LocalMediatorError → String
  | .foreignKey keyId => "key " ++ keyId.text ++ " is not held by this server"
  | .invalidValue error => "invalid shard value: " ++ error.message
  | .decryption => "shard decryption failed"

/-- The shared key pair, and how shares are encrypted. -/
structure LocalMediator where
  sharedKey : KeyPair
  encryption : ShareEncryption

namespace LocalMediator

def sharedKeyId (mediator : LocalMediator) : KeyId := mediator.sharedKey.id

def openShard (mediator : LocalMediator) (request : MediatorRequest) :
    Except LocalMediatorError Share :=
  if request.keyId ≠ mediator.sharedKeyId then .error (.foreignKey request.keyId)
  else
    match (Shard.mk request.keyId request.value).ciphertext with
    | .error error => .error (.invalidValue error)
    | .ok ciphertext =>
      match mediator.encryption.decrypt ciphertext mediator.sharedKey with
      | .ok share => .ok share
      | .error _ => .error .decryption

/-- The answer to a request: every failure is a refusal. -/
def reply (mediator : LocalMediator) (request : MediatorRequest) : MediatorReply :=
  (mediator.openShard request).mapError fun error ↦ .rejected error.message

/-- The mediator itself, which answers at once. -/
def toMediator {m : Type → Type} [Monad m] (mediator : LocalMediator) : Mediator m :=
  Mediator.ofReply mediator.reply

end LocalMediator

end DualSeal
