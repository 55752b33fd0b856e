import DualSeal.Envelope.Basic
import DualSeal.Mediator.Basic

/-!
# Decrypting a secret

Decryption needs two halves: the requester's own shard, opened with the requester's key, and the
shard of the shared key, opened by the mediator. All that can be found wrong without the mediator is
found before it is asked, so that a call is one inquiry: the request, and what it takes to go on
with the reply.
-/

namespace DualSeal

/-- A written secret to decrypt, for a requester who waits at most `timeout` for the mediator. -/
structure DecryptCommand where
  encoded : String
  sharedKeyId : KeyId
  requester : Option KeyPair
  timeout : Milliseconds

namespace Envelope

/-- A decryption that waits for the mediator. -/
structure Inquiry where
  request : MediatorRequest
  requester : KeyPair
  /-- The ciphertext of the requester's own shard. -/
  ciphertext : Bytes

/-- The inquiry that a command comes to, unless it fails before: the text is read, then requester
and mediator must be there, then the requester's shard, the shared one, and a ciphertext in the
former. Nobody opens a secret with the shared key as requester. -/
def inquiry (command : DecryptCommand) (mediated : Bool) : Except EnvelopeError Inquiry := do
  let secret ← (Secret.decode command.encoded).mapError .format
  let some requester := command.requester | .error (.insufficientShares .noRequester)
  if !mediated then .error (.insufficientShares .noMediator)
  if requester.id = command.sharedKeyId then .error (.noMatchingShard requester.id)
  let some own := secret.find? requester.id | .error (.noMatchingShard requester.id)
  let some shared := secret.find? command.sharedKeyId
    | .error (.insufficientShares (.noSharedShard command.sharedKeyId))
  let ciphertext ← own.ciphertext.mapError .format
  return ⟨⟨shared.value, shared.keyId⟩, requester, ciphertext⟩

/-- The plaintext in the bytes that shares came to. -/
def openTagged (tagged : Bytes) : Except EnvelopeError String :=
  match checkTag? tagged with
  | none => .error (.recombination .unrelated)
  | some plaintext =>
    match Utf8.decodeString plaintext with
    | .ok text => .ok text
    | .error _ => .error (.recombination .notText)

/-- The plaintext that two shares come to. -/
def recombine (threshold : ThresholdScheme) (shared own : Share) : Except EnvelopeError String :=
  match threshold.combine [shared, own] with
  | .error error => .error (.recombination (.scheme error))
  | .ok tagged => openTagged tagged

/-- What an inquiry comes to once the mediator's call has ended. -/
def Inquiry.conclude (inquiry : Inquiry) (envelope : Envelope) (timeout : Milliseconds)
    (outcome : MediatorOutcome) : Except EnvelopeError String :=
  match outcome.within? timeout with
  | none => .error (.cancelled timeout)
  | some (.error (.network reason)) => .error (.network reason)
  | some (.error (.rejected reason)) =>
    .error (.encryption (.refused inquiry.request.keyId reason))
  | some (.ok shared) =>
    match envelope.encryption.decrypt inquiry.ciphertext inquiry.requester with
    | .error error => .error (.encryption (.shard inquiry.requester.id error))
    | .ok own => recombine envelope.threshold shared own

/-- Decrypts a written secret, asking the mediator at most once. -/
def decryptSecret {m : Type → Type} [Monad m] (envelope : Envelope) (command : DecryptCommand)
    (mediator : Option (Mediator m)) : m (Except EnvelopeError String) :=
  match inquiry command mediator.isSome, mediator with
  | .ok inquiry, some mediator =>
    return inquiry.conclude envelope command.timeout (← mediator inquiry.request)
  | .ok _, none => return .error (.insufficientShares .noMediator)
  | .error error, _ => return .error error

end Envelope

end DualSeal
