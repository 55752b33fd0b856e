import DualSeal.Json.Record
import DualSeal.Json.Writer
import DualSeal.Project.Basic

/-!
# Project documents

A project is written as an indented object with its fields in order. On the way in everything but
the shared key may be missing, and of two texts under one name the later counts.
-/

namespace DualSeal.Project

def fields : List Json.Field :=
  [.required "shared_key_id", ⟨"member_key_ids", .texts, some (.texts [])⟩,
    ⟨"service_key_ids", .texts, some (.texts [])⟩, ⟨"secrets", .table, some (.table [])⟩]

/-- A list of ids, with its items on lines of their own. -/
def idsDocument (ids : List KeyId) : List Char :=
  Json.indentedList 1 (ids.map fun id ↦ Json.textChars id.text)

def document (project : Project) : List Char :=
  Json.indentedObject 0
    [("shared_key_id", Json.textChars project.sharedKeyId.text),
      ("member_key_ids", idsDocument project.memberKeyIds),
      ("service_key_ids", idsDocument project.serviceKeyIds),
      ("secrets", Json.indentedObject 1 (project.secrets.entries.map fun (name, text) ↦
        (name, Json.textChars text)))]

def ofDocument (text : Bytes) : Except Json.Fault Project := do
  match ← Json.readRecord fields text with
  | [.text shared, .texts members, .texts services, .table secrets] =>
    return ⟨⟨shared⟩, members.map KeyId.mk, services.map KeyId.mk, .ofList secrets⟩
  | _ => .error .shape

end DualSeal.Project
