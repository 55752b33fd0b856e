import DualSeal.Keys.KeyId
import DualSeal.Project.Table

/-!
# Projects

A project names its shared key and its recipients, and holds written secrets under the names of
variables. It never holds a plaintext.
-/

namespace DualSeal

/-- What a project file says. -/
structure Project where
  sharedKeyId : KeyId
  memberKeyIds : List KeyId
  serviceKeyIds : List KeyId
  secrets : NamedTexts
  deriving DecidableEq

namespace Project

def create (sharedKeyId : KeyId) (members services : List KeyId) : Project :=
  ⟨sharedKeyId, members, services, .empty⟩

/-- The ids that are not among those `seen` before, each at its first occurrence. -/
def firstOccurrences (seen : List KeyId) : List KeyId → List KeyId
  | [] => []
  | id :: ids =>
    if id ∈ seen then firstOccurrences seen ids else id :: firstOccurrences (id :: seen) ids

/-- The recipients: members, then services, without repetitions. -/
def recipientKeyIds (project : Project) : List KeyId :=
  firstOccurrences [] (project.memberKeyIds ++ project.serviceKeyIds)

/-- A character that a variable's name may begin with. -/
def isNameHead (c : Char) : Bool := c.isAlpha || c = '_'

/-- A character that a variable's name may go on with. -/
def isNameTail (c : Char) : Bool := c.isAlphanum || c = '_'

/-- Whether a text can name a variable: an ASCII letter or underscore, then letters, digits and
underscores. -/
def isName (name : String) : Bool :=
  match name.toList with
  | [] => false
  | c :: rest => isNameHead c && rest.all isNameTail

/-- Puts a written secret under a name, in place of the one that may be there. -/
def putSecret? (project : Project) (name encoded : String) : Option Project :=
  if isName name then some { project with secrets := project.secrets.insert name encoded } else none

def removeSecret? (project : Project) (name : String) : Option Project :=
  if (project.secrets.get? name).isSome then
    some { project with secrets := project.secrets.erase name }
  else none

/-- Names other recipients. The secrets stay as they are, encrypted for the old ones. -/
def replaceRecipients (project : Project) (members services : List KeyId) : Project :=
  { project with memberKeyIds := members, serviceKeyIds := services }

end Project

end DualSeal
