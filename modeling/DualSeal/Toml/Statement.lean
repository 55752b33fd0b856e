import DualSeal.Toml.Scalar

/-!
# TOML statements

A document is a sequence of lines that say something: headers that open a table, headers that add a
table to an array, and entries. Comments and blank lines say nothing. Brackets nest at most
seventy-nine deep, and a key has at most as many parts.
-/

namespace DualSeal.Toml

/-- A dotted key: the names on the way, and the last one. -/
structure Key where
  parents : List String
  name : String
  deriving DecidableEq

/-- How deep brackets nest, and how many parts a key has, at most. -/
def nestingLimit : Nat := 79

/-! ## Blanks -/

/-- The text from its first character that is no space or tab. -/
def skipSpaces (text : List Char) : List Char := text.dropWhile isSpace

/-- The text behind spaces, line breaks and whole comments, inside a comment or not. It stops at
what a comment must not hold. -/
def skipLines : (comment : Bool) → List Char → List Char
  | _, [] => []
  | comment, c :: rest =>
    if c = '\n' then skipLines false rest
    else if c = '\r' ∧ rest.head? = some '\n' then skipLines false rest
    else if comment then if isPlain c then skipLines true rest else c :: rest
    else if isSpace c then skipLines false rest
    else if c = '#' then skipLines true rest
    else c :: rest

/-- Passes the end of a line: blanks, perhaps a comment, and a line break or the end of the text. -/
def lineEnd? (text : List Char) : Option (List Char) :=
  let rest := skipSpaces text
  let rest := if rest.head? = some '#' then rest.dropWhile isPlain else rest
  if rest = [] then some [] else newline? rest

/-! ## Keys -/

/-- A character of a key without quotes. -/
def isBare (c : Char) : Bool := c.isAlphanum || c = '_' || c = '-'

def readName? (text : List Char) : Option (String × List Char) :=
  let bare := text.takeWhile isBare
  if bare = [] then readLine? text else some (String.ofList bare, text.dropWhile isBare)

/-- Reads a key of at most `room` parts, and the blanks behind it. -/
def readKey? : (room : Nat) → List Char → Option (Key × List Char)
  | 0, _ => none
  | room + 1, text => do
    let (name, rest) ← readName? (skipSpaces text)
    let rest := skipSpaces rest
    match mark? '.' rest with
    | some rest =>
      let (key, rest) ← readKey? room rest
      return (⟨name :: key.parents, key.name⟩, rest)
    | none => return (⟨[], name⟩, rest)

/-! ## Tables -/

/-- A table with the text or table at one name replaced, or added behind the others. -/
def Table.put (table : Table) (name : String) (value : Value) : Table :=
  if (table.lookup name).isSome then
    table.map fun (other, old) ↦ if other = name then (other, value) else (other, old)
  else table ++ [(name, value)]

/-- Adds an entry below a table. The way to it may create tables and lead through those that were
only passed so far; it must end in one that other dotted keys created, or at the table itself. -/
def addEntry (name : String) (value : Value) : (mayEnd : Bool) → List String → Table → Option Table
  | mayEnd, [], table =>
    if mayEnd ∧ (table.lookup name).isNone then some (table ++ [(name, value)]) else none
  | _, parent :: parents, table =>
    match table.lookup parent with
    | none => do
      let entries ← addEntry name value true parents []
      return table.put parent (.table .dotted entries)
    | some (.table .dotted entries) => do
      let entries ← addEntry name value true parents entries
      return table.put parent (.table .dotted entries)
    | some (.table .implied entries) => do
      let entries ← addEntry name value false parents entries
      return table.put parent (.table .implied entries)
    | some (.tables items) => do
      let last ← addEntry name value false parents (items.getLastD [])
      return table.put parent (.tables (items.dropLast ++ [last]))
    | some _ => none

/-- The table of the entries in braces. -/
def tableOf? (entries : List (Key × Value)) : Option Table :=
  entries.foldlM (fun table (key, value) ↦ addEntry key.name value true key.parents table) []

/-! ## Values -/

/-- Reads what stands between brackets, up to the closing one, with commas between the items;
`blanks` passes what may stand around them, and `trailing` allows a comma behind the last. `fuel`
bounds their number. -/
def readItems? {α : Type} (blanks : List Char → List Char) (closing : Char) (trailing : Bool)
    (item : List Char → Option (α × List Char)) :
    (fuel : Nat) → (first : Bool) → List Char → Option (List α × List Char)
  | 0, _, _ => none
  | fuel + 1, first, text => do
    let text := blanks text
    if text.head? = some closing ∧ (first ∨ trailing) then return ([], text.drop 1)
    else
      let (value, rest) ← item text
      match blanks rest with
      | [] => none
      | c :: rest =>
        if c = closing then return ([value], rest)
        else if c = ',' then
          let (values, rest) ← readItems? blanks closing trailing item fuel false rest
          return (value :: values, rest)
        else none

/-- Reads a key, its value, and the sign between them. -/
def readPair? (value : List Char → Option (Value × List Char)) (text : List Char) :
    Option ((Key × Value) × List Char) := do
  let (key, rest) ← readKey? nestingLimit text
  let (value, rest) ← value (skipSpaces (← mark? '=' rest))
  return ((key, value), rest)

/-- Reads a value in which at most `room` brackets nest. -/
def readValue? : (room : Nat) → List Char → Option (Value × List Char)
  | _, [] => none
  | room, c :: rest =>
    if c = quote ∨ c = apostrophe then
      (readText? (c :: rest)).map fun (text, rest) ↦ (.text text, rest)
    else if c = '[' then
      match room with
      | 0 => none
      | room + 1 => do
        let (items, rest) ←
          readItems? (skipLines false) ']' true (readValue? room) (rest.length + 1) true rest
        return (.list items, rest)
    else if c = '{' then
      match room with
      | 0 => none
      | room + 1 => do
        let (entries, rest) ←
          readItems? skipSpaces '}' false (readPair? (readValue? room)) (rest.length + 1) true rest
        return (.table .inline (← tableOf? entries), rest)
    else
      match "true".toList.isPrefixOf? (c :: rest), "false".toList.isPrefixOf? (c :: rest) with
      | some rest, _ => some (.truth true, rest)
      | _, some rest => some (.truth false, rest)
      | none, none => number? (c :: rest)

/-! ## Lines -/

/-- What a line says. -/
inductive Statement where
  /-- The table that the following entries go to. -/
  | header (key : Key)
  /-- A new table at the end of an array, for the following entries. -/
  | item (key : Key)
  | entry (key : Key) (value : Value)

def readStatement? (text : List Char) : Option (Statement × List Char) :=
  match text with
  | '[' :: '[' :: rest => do
    let (key, rest) ← readKey? nestingLimit rest
    return (.item key, ← mark? ']' (← mark? ']' rest))
  | '[' :: rest => do
    let (key, rest) ← readKey? nestingLimit rest
    return (.header key, ← mark? ']' rest)
  | _ => do
    let ((key, value), rest) ← readPair? (readValue? nestingLimit) text
    return (.entry key value, rest)

/-- Reads all statements, each on a line of its own; `fuel` bounds the number of lines. -/
def readStatements? : (fuel : Nat) → List Char → Option (List Statement)
  | 0, _ => none
  | fuel + 1, text =>
    match skipSpaces text with
    | [] => some []
    | c :: rest =>
      if c = '#' ∨ (newline? (c :: rest)).isSome then
        (lineEnd? (c :: rest)).bind (readStatements? fuel)
      else do
        let (statement, rest) ← readStatement? (c :: rest)
        return statement :: (← readStatements? fuel (← lineEnd? rest))

end DualSeal.Toml
