import DualSeal.Envelope.Inquiry
import DualSeal.Envelope.Plan
import DualSeal.Project.Repository

/-!
# The secrets of a project

Secrets are encrypted for the recipients that the project names, and decrypted one variable at a
time. A change loads the project, makes it, and saves the result; when any part fails nothing is
saved. New recipients get every secret encrypted anew, or the project stays as it is.
-/

namespace DualSeal

/-- Why an operation on a project's secrets fails. -/
inductive ProjectError where
  | repository (error : RepositoryError)
  | notFound (name : String)
  | invalidName (name : String)
  | envelope (name : String) (error : EnvelopeError)
  deriving DecidableEq, Repr

def ProjectError.message : ProjectError → String
  | .repository error => "project repository error: " ++ error.message
  | .notFound name => "secret not found: " ++ name
  | .invalidName name => "invalid variable name: " ++ name
  | .envelope name error => "secret " ++ name ++ ": " ++ error.message

/-- Who decrypts, with whose help, and how long it may take. -/
structure DecryptContext (m : Type → Type) where
  requester : Option KeyPair
  mediator : Option (Mediator m)
  timeout : Milliseconds

namespace Project

/-- Encrypts a value of a variable for the recipients of a project. -/
def encryptFor (project : Project) (envelope : Envelope) (entropy : EntropySource)
    (name plaintext : String) (format : WireFormat) (lookup : KeyLookup) :
    Except ProjectError String :=
  (envelope.encryptSecret entropy
    ⟨plaintext, project.sharedKeyId, project.recipientKeyIds, format⟩ lookup).mapError
      (.envelope name)

/-- Puts a written secret under a name. -/
def withEncoded (project : Project) (name encoded : String) : Except ProjectError Project :=
  match project.putSecret? name encoded with
  | some project => .ok project
  | none => .error (.invalidName name)

/-- The project with a value encrypted and put under a name. -/
def withSecret (project : Project) (envelope : Envelope) (entropy : EntropySource)
    (name plaintext : String) (format : WireFormat) (lookup : KeyLookup) :
    Except ProjectError Project := do
  let encoded ← project.encryptFor envelope entropy name plaintext format lookup
  project.withEncoded name encoded

/-- The project without a variable, which must be there. -/
def withoutSecret (project : Project) (name : String) : Except ProjectError Project :=
  match project.removeSecret? name with
  | some project => .ok project
  | none => .error (.notFound name)

def secret (project : Project) (name : String) : Except ProjectError String :=
  match project.secrets.get? name with
  | some encoded => .ok encoded
  | none => .error (.notFound name)

variable {m : Type → Type} [Monad m]

/-- Decrypts the written secret of a variable. -/
def decryptEntry (project : Project) (envelope : Envelope) (context : DecryptContext m)
    (name encoded : String) : m (Except ProjectError String) := do
  let result ← envelope.decryptSecret
    ⟨encoded, project.sharedKeyId, context.requester, context.timeout⟩ context.mediator
  return result.mapError (.envelope name)

/-- Decrypts entries one after the other; one that fails does not stop the others. -/
def decryptEntries (project : Project) (envelope : Envelope) (context : DecryptContext m) :
    List (String × String) → m (List (String × Except ProjectError String))
  | [] => return []
  | (name, encoded) :: rest => do
    let result ← project.decryptEntry envelope context name encoded
    let results ← project.decryptEntries envelope context rest
    return (name, result) :: results

/-- Encrypts entries of `project` anew, for the recipients of `rotated`, and puts them there. Each
keeps its written form; the supplies of random bytes are numbered from `index` on. -/
def reencrypt (project : Project) (envelope : Envelope) (entropy : Nat → EntropySource)
    (context : DecryptContext m) (lookup : KeyLookup) :
    (index : Nat) → List (String × String) → (rotated : Project) → ExceptT ProjectError m Project
  | _, [], rotated => return rotated
  | index, (name, encoded) :: rest, rotated => do
    let plaintext ← ExceptT.mk (project.decryptEntry envelope context name encoded)
    let rotated ← ExceptT.mk (pure
      (rotated.withSecret envelope (entropy index) name plaintext (Secret.formatOf encoded) lookup))
    project.reencrypt envelope entropy context lookup (index + 1) rest rotated

/-- The project with other recipients, and all secrets encrypted for them. -/
def rotated (project : Project) (envelope : Envelope) (entropy : Nat → EntropySource)
    (context : DecryptContext m) (lookup : KeyLookup) (members services : List KeyId) :
    ExceptT ProjectError m Project :=
  project.reencrypt envelope entropy context lookup 0 project.secrets.entries
    (project.replaceRecipients members services)

end Project

/-- The secrets of the project in a repository. -/
structure ProjectSecrets (m : Type → Type) where
  repository : ProjectRepository m
  envelope : Envelope

namespace ProjectSecrets

variable {m : Type → Type} [Monad m] (secrets : ProjectSecrets m)

def load : ExceptT ProjectError m Project := secrets.repository.load.adapt .repository

/-- Loads the project, changes it, and saves it. -/
def edit (change : Project → ExceptT ProjectError m Project) : ExceptT ProjectError m Unit := do
  let project ← change (← secrets.load)
  (secrets.repository.save project).adapt .repository

def names : ExceptT ProjectError m (List String) := do
  return (← secrets.load).secrets.names

/-- Encrypts a value and puts it under a name. -/
def set (entropy : EntropySource) (name plaintext : String) (format : WireFormat)
    (lookup : KeyLookup) : ExceptT ProjectError m Unit :=
  secrets.edit fun project ↦
    ExceptT.mk (pure (project.withSecret secrets.envelope entropy name plaintext format lookup))

def get (name : String) (context : DecryptContext m) : ExceptT ProjectError m String := do
  let project ← secrets.load
  let encoded ← ExceptT.mk (pure (project.secret name))
  ExceptT.mk (project.decryptEntry secrets.envelope context name encoded)

/-- Decrypts every variable: what became of each, in the order of their names. -/
def decryptAll (context : DecryptContext m) :
    ExceptT ProjectError m (List (String × Except ProjectError String)) := do
  let project ← secrets.load
  ExceptT.lift (project.decryptEntries secrets.envelope context project.secrets.entries)

/-- Names other recipients and encrypts every secret for them. -/
def rotate (entropy : Nat → EntropySource) (members services : List KeyId)
    (context : DecryptContext m) (lookup : KeyLookup) : ExceptT ProjectError m Unit :=
  secrets.edit fun project ↦
    project.rotated secrets.envelope entropy context lookup members services

def remove (name : String) : ExceptT ProjectError m Unit :=
  secrets.edit fun project ↦ ExceptT.mk (pure (project.withoutSecret name))

end ProjectSecrets

end DualSeal
