import DualSeal.Config.Basic
import DualSeal.Http.Url
import DualSeal.Keys.Cache
import DualSeal.Server.Api

/-!
# Public keys from a server

A source of public keys that asks a server for each. What the server says about the key's id is not
believed: whoever uses the text checks its fingerprint.
-/

namespace DualSeal.RemoteKeys

open Http

/-- The text of a key in an answer. -/
def textIn (target : Url) (id : KeyId) : Exchange → Except ResolverError String
  | .refused | .timedOut | .dropped => .error (.network (undelivered target.text))
  | .answered response =>
    if response.status.code = 404 then .error (.notFound id)
    else if !response.status.isSuccess then
      .error (.network ("unexpected status " ++ response.status.text ++ " for key " ++ id.text))
    else
      match Api.readKey response.body with
      | .ok document => .ok document.pem
      | .error _ => .error (.network undecodable)

/-- The server of a client as a source of keys. -/
def resolver {m : Type → Type} [Monad m] (transport : Transport m) (config : ClientConfig) :
    KeyResolver m := fun id ↦ do
  match Url.callable transport.spelling (urlOn config.serverUrl (Api.keyPath id)) with
  | .error reason => throw (.network reason)
  | .ok target =>
    let request : Request := ⟨"GET", target.target, none, []⟩
    match textIn target id (← transport.send config.timeout.toNat target.host request) with
    | .ok text => return text
    | .error error => throw error

end DualSeal.RemoteKeys
