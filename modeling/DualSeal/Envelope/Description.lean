import DualSeal.Envelope.Inquiry
import DualSeal.Envelope.Plan
import DualSeal.Text.Quoted

/-!
# Descriptions for logs

Keys, shares and commands described for people. Whatever must not be disclosed is left out: private
numbers, the bytes of shares and plaintexts do not occur in a description, only their presence does.
-/

namespace DualSeal

/-- What stands in a description in place of something that is not disclosed. -/
def redacted : String := "[REDACTED]"

/-- A description of a structure: its name, and its fields in order. -/
def describeFields (name : String) (fields : List (String × String)) : String :=
  name ++ " \x7b " ++ String.intercalate ", " (fields.map fun (field, value) ↦
    field ++ ": " ++ value) ++ " \x7d"

def KeyId.description (id : KeyId) : String := "KeyId(" ++ Text.quoted id.text ++ ")"

/-- A key pair described, without the private number. -/
def KeyPair.description (pair : KeyPair) : String :=
  describeFields "KeyPair" [("key_type", pair.type.name), ("key_id", pair.id.description)]

/-- A share described by its size. -/
def Share.description (share : Share) : String :=
  "Shard([REDACTED; " ++ toString share.size ++ "])"

def WireFormat.description : WireFormat → String
  | .simple => "Simple"
  | .pem => "Pem"

/-- A command described, without the plaintext. -/
def EncryptCommand.description (command : EncryptCommand) : String :=
  describeFields "EncryptSecretCommand" [("plaintext", Text.quoted redacted),
    ("shared_key_id", command.sharedKeyId.description),
    ("recipient_key_ids",
      "[" ++ String.intercalate ", " (command.recipientKeyIds.map KeyId.description) ++ "]"),
    ("format", command.format.description)]

def DecryptCommand.description (command : DecryptCommand) : String :=
  describeFields "DecryptSecretCommand" [("encoded", Text.quoted command.encoded),
    ("shared_key_id", command.sharedKeyId.description),
    ("requester", match command.requester with
      | none => "None"
      | some pair => "Some(" ++ pair.description ++ ")"),
    ("timeout", command.timeout.text)]

end DualSeal
