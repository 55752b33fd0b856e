import DualSeal.Http.Url
import DualSeal.Server.Basic

/-!
# Routing

The path of a request picks what it is about, and the method what is done. Every answer but that to
a registration leaves the store as it is, and the answer to a mediator request does not depend on
it.
-/

namespace DualSeal

/-- What a path is about. -/
inductive Route where
  | health
  | decrypt
  | keys
  /-- The key whose id the last segment of the path spells. -/
  | key (segment : String)
  deriving DecidableEq

namespace Route

def ofPath? (path : List Char) : Option Route :=
  if path = Api.healthPath.toList then some .health
  else if path = Api.decryptPath.toList then some .decrypt
  else if path = Api.keysPath.toList then some .keys
  else
    ((Api.keysPath ++ "/").toList.isPrefixOf? path).bind fun segment ↦
      if segment = [] ∨ segment.contains '/' then none else some (.key (String.ofList segment))

def methods : Route → List String
  | .health | .key _ => ["GET", "HEAD"]
  | .decrypt | .keys => ["POST"]

end Route

namespace Server

open Http

variable {σ : Type}

/-- The id that a segment spells. -/
def spelledId? (segment : String) : Option KeyId :=
  match Utf8.decodeString (unescape (Utf8.encodeString segment)) with
  | .ok text => some ⟨text⟩
  | .error _ => none

/-- Shows the key whose id a segment spells. -/
def showSegment (store : KeyStore σ) (segment : String) (state : σ) : Response :=
  match spelledId? segment with
  | some id => showKey store id state
  | none => .ofText 400 "Invalid URL: Invalid UTF-8 in `key_id`"

/-- The id of the key that a request asks for. -/
def askedId? (request : Request) : Option KeyId :=
  match Route.ofPath? (pathOf request.target) with
  | some (.key segment) => spelledId? segment
  | _ => none

/-- The answer to a request with a method that its route takes. -/
def answer (server : Server σ) (request : Request) (state : σ) : Route → Response × σ
  | .health => (.ofText 200 "ok", state)
  | .decrypt => (decrypt server.mediator request, state)
  | .keys => register server.store request state
  | .key segment => (showSegment server.store segment state, state)

/-- The answer to a request, and the store behind it. -/
def handle (server : Server σ) (request : Request) (state : σ) : Response × σ :=
  match Route.ofPath? (pathOf request.target) with
  | none => (.bare 404, state)
  | some route =>
    if request.method ∈ route.methods then
      let (response, state) := server.answer request state route
      (if request.method = "HEAD" then { response with body := [] } else response, state)
    else ({ Response.bare 405 with allow := some (",".intercalate route.methods) }, state)

end Server

end DualSeal
