import DualSeal.Http.Message
import DualSeal.Text.Numeral

/-!
# Messages on the line

A request arrives as a head and a body: the head is lines of text that an empty line ends, and one
of its headers tells the length of the body. A response is written the same way, and ends the
connection.
-/

namespace DualSeal.Http

/-- What the bytes that have arrived so far are. -/
inductive Arrival where
  /-- A request of which more is to come. -/
  | incomplete
  | malformed
  | complete (request : Request)

/-- The lines of a head, and the bytes behind it; `line` holds the line so far in reverse. There are
none while the head has no end. -/
def splitHead : (line : Bytes) → Bytes → Option (List String × Bytes)
  | _, [] => none
  | line, b :: rest =>
    if b.toNat = 0x0A then
      let text := Bytes.toLatin ((if line.head? = some 0x0D then line.drop 1 else line).reverse)
      if text = "" then some ([], rest)
      else (splitHead [] rest).map fun (lines, rest) ↦ (text :: lines, rest)
    else splitHead (b :: line) rest

/-- A header: its name in lower case, and its value. -/
def header? (line : String) : Option (String × String) :=
  let name := line.toList.takeWhile (· ≠ ':')
  match line.toList.drop name.length with
  | [] => none
  | _ :: value =>
    let isBlank (c : Char) : Bool := c = ' ' || c = '\t'
    let value := ((value.dropWhile isBlank).reverse.dropWhile isBlank).reverse
    some (String.ofList (name.map Char.toLower), String.ofList value)

/-- The length of the body that headers tell; there is none where they tell nothing. -/
def bodyLength? (headers : List (String × String)) : Option Nat :=
  match headers.lookup "content-length" with
  | none => some 0
  | some text =>
    if text ≠ "" ∧ text.toList.all (Numeral.isDigit 10) then some (Numeral.value 10 text.toList)
    else none

/-- What the bytes that have arrived from a client are. -/
def arrival (bytes : Bytes) : Arrival :=
  match splitHead [] bytes with
  | none => .incomplete
  | some ([], _) => .malformed
  | some (first :: lines, rest) =>
    match (first.toList.splitOn ' ').map String.ofList, lines.mapM header? with
    | [method, target, _], some headers =>
      match bodyLength? headers with
      | none => .malformed
      | some length =>
        if rest.length < length then .incomplete
        else .complete ⟨method, target, headers.lookup "content-type", rest.take length⟩
    | _, _ => .malformed

def headLine (text : String) : Bytes := Utf8.encodeString text ++ [0x0D, 0x0A]

def Response.bytes (response : Response) : Bytes :=
  headLine ("HTTP/1.1 " ++ response.status.text) ++
    (response.contentType.map fun type ↦ headLine ("content-type: " ++ type)).getD [] ++
    (response.allow.map fun methods ↦ headLine ("allow: " ++ methods)).getD [] ++
    headLine ("content-length: " ++ toString response.body.length) ++
    headLine "connection: close" ++ headLine "" ++ response.body

end DualSeal.Http
