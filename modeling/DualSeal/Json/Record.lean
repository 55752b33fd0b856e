import DualSeal.Json.Reader

/-!
# Reading records

A record is written as an object with the record's field names, or as a list of its fields in the
order of their declaration. In an object unknown fields are skipped and a known one may not come
twice; in a list fields with a default may be missing at the end. The first problem in the order of
the text is the one that counts: a repeated field at its second name, a missing one at the closing
bracket.
-/

namespace DualSeal.Json

/-- The shapes that a field may have. -/
inductive Shape where
  | text
  | texts
  | table
  deriving DecidableEq

inductive Value where
  | text (value : String)
  | texts (values : List String)
  | table (entries : List (String × String))
  deriving DecidableEq

/-- A field of a record; one without a default must be there. -/
structure Field where
  name : String
  shape : Shape
  default? : Option Value

/-- A string field that must be there. -/
def Field.required (name : String) : Field := ⟨name, .text, none⟩

def Shape.read : Shape → Bytes → Except Fault (Value × Bytes)
  | .text, input => do
    let (value, rest) ← Json.text input
    return (.text value, rest)
  | .texts, input => do
    let (values, rest) ← Json.texts input
    return (.texts values, rest)
  | .table, input => do
    let (entries, rest) ← Json.table input
    return (.table entries, rest)

/-- The value of a field that is not there. -/
def Field.absent (field : Field) : Except Fault Value :=
  match field.default? with
  | some value => .ok value
  | none => .error .shape

/-- Reads the fields of a record that is written as a list, from some field on. -/
def listFields : (fields : List Field) → (first : Bool) → Bytes → Except Fault (List Value × Bytes)
  | [], first, text => do
    match ← next (ascii ']') first text with
    | .closed rest => return ([], rest)
    | .item _ => .error .malformed
  | field :: fields, first, text => do
    match ← next (ascii ']') first text with
    | .closed rest =>
      let value ← field.absent
      let values ← fields.mapM Field.absent
      return (value :: values, rest)
    | .item rest =>
      let (value, rest) ← field.shape.read rest
      let (values, rest) ← listFields fields false rest
      return (value :: values, rest)

/-- The values of all fields, from those that were found. -/
def complete (fields : List Field) (found : List (String × Value)) : Except Fault (List Value) :=
  fields.mapM fun field ↦
    match found.lookup field.name with
    | some value => .ok value
    | none => field.absent

/-- Reads the fields of a record that is written as an object, after those that were found; `fuel`
bounds their number. -/
def objectFields (fields : List Field) : (fuel : Nat) → (found : List (String × Value)) →
    (first : Bool) → Bytes → Except Fault (List Value × Bytes)
  | 0, _, _, _ => .error .malformed
  | fuel + 1, found, first, text => do
    match ← next (ascii '}') first text with
    | .closed rest => return (← complete fields found, rest)
    | .item rest =>
      let (name, rest) ← fieldName rest
      match fields.find? (·.name = name) with
      | none =>
        let rest ← skipValue (← colon rest)
        objectFields fields fuel found false rest
      | some field =>
        if (found.lookup name).isSome then .error .shape
        else
          let (value, rest) ← field.shape.read (← colon rest)
          objectFields fields fuel ((name, value) :: found) false rest
where
  /-- Reads the name of a field. -/
  fieldName (text : Bytes) : Except Fault (String × Bytes) :=
    match text with
    | [] => .error .malformed
    | b :: rest => if b = ascii '"' then string rest else .error .malformed
  /-- Reads the colon behind a name. -/
  colon (text : Bytes) : Except Fault Bytes :=
    match skipBlanks text with
    | [] => .error .malformed
    | b :: rest => if b = ascii ':' then .ok rest else .error .malformed

/-- Reads a record: the values of its fields in the order of their declaration. -/
def record (fields : List Field) (input : Bytes) : Except Fault (List Value × Bytes) :=
  match skipBlanks input with
  | [] => .error .malformed
  | b :: rest =>
    if b = ascii '[' then listFields fields true rest
    else if b = ascii '{' then objectFields fields (rest.length + 1) [] true rest
    else .error (mismatch (b :: rest))

/-- Reads a document that is one record. -/
def readRecord (fields : List Field) (document : Bytes) : Except Fault (List Value) := do
  let (values, rest) ← record fields document
  finish rest
  return values

end DualSeal.Json
