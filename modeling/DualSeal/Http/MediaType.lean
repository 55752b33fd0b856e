/-!
# Media types

A content type names a type and a subtype, perhaps with a suffix behind the last plus sign, and
lists parameters behind semicolons. Whether a body is JSON is a matter of type, subtype and suffix;
the parameters must be well formed nevertheless.
-/

namespace DualSeal.Http

def isToken (c : Char) : Bool :=
  c.isAlphanum || ['!', '#', '$', '%', '&', Char.ofNat 0x27, '*', '+', '-', '.', '^', '_',
    Char.ofNat 0x60, '|', '~'].contains c

/-- A character that may stand between quotes. -/
def isQuotable (c : Char) : Bool := 32 ≤ c.toNat && c.toNat < 127

/-- The states of a check of parameters. -/
inductive ParameterState where
  /-- In front of a name, where blanks may stand. -/
  | start
  | name
  /-- In front of a value. -/
  | value
  | token
  /-- Between quotes; the first character is never the closing one. -/
  | quoted (empty : Bool)
  /-- Behind a quoted value. -/
  | after
  deriving DecidableEq

/-- The state behind a character, if it may stand there. -/
def ParameterState.next? (c : Char) : ParameterState → Option ParameterState
  | .start => if c = ' ' then some .start else if isToken c then some .name else none
  | .name => if c = '=' then some .value else if isToken c then some .name else none
  | .value => if c = '"' then some (.quoted true) else if isToken c then some .token else none
  | .token => if c = ';' then some .start else if isToken c then some .token else none
  | .quoted empty =>
    if c = '"' ∧ !empty then some .after
    else if isQuotable c then some (.quoted false) else none
  | .after => if c = ';' then some .start else if c = ' ' then some .after else none

/-- Whether parameters may end in a state. -/
def ParameterState.isFinal : ParameterState → Bool
  | .start | .value | .token | .after => true
  | .name | .quoted _ => false

/-- Whether a text is a list of parameters. -/
def areParameters (text : List Char) : Bool :=
  match text.foldlM (fun state c ↦ ParameterState.next? c state) .start with
  | some state => state.isFinal
  | none => false

/-- A subtype without its suffix, and the suffix. -/
def splitSuffix (subtype : List Char) : List Char × Option (List Char) :=
  let suffix := (subtype.reverse.takeWhile (· ≠ '+')).reverse
  let stem := subtype.take (subtype.length - suffix.length - 1)
  if subtype.contains '+' ∧ stem ≠ [] then (stem, some suffix) else (subtype, none)

/-- Whether a content type says that a body is JSON. -/
def isJsonType (contentType : String) : Bool :=
  let text := contentType.toList.map Char.toLower
  let type := text.takeWhile (· ≠ '/')
  let subtype := (text.drop (type.length + 1)).takeWhile isToken
  let (stem, suffix) := splitSuffix subtype
  let parameters := text.drop (type.length + 1 + subtype.length)
  let json := "json".toList
  type = "application".toList && text.contains '/' && subtype ≠ [] &&
    (stem = json || suffix = some json) &&
    (parameters = [] || (parameters.head? = some ';' && areParameters (parameters.drop 1)))

end DualSeal.Http
