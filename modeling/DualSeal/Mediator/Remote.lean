import DualSeal.Config.Basic
import DualSeal.Http.Url
import DualSeal.Server.Api
import DualSeal.Secret.Wire

/-!
# A mediator behind a server

Requests go to a server over a transport. Where no answer comes about, or the server says that it is
at fault, the request is sent again after a pause, a limited number of times; every other answer is
final.
-/

namespace DualSeal

/-- A client of a server's mediator. -/
structure RemoteMediator (m : Type → Type) where
  transport : Http.Transport m
  config : ClientConfig

namespace RemoteMediator

open Http

/-- What an attempt comes to. -/
inductive Verdict where
  | settled (reply : MediatorReply)
  | retry (reason : String)

/-- The share in an answer. -/
def shareIn (body : Bytes) : MediatorReply :=
  match Api.readShare body with
  | .error _ => .error (.network undecodable)
  | .ok share =>
    match Base64.decode (Utf8.encodeString share) with
    | .ok bytes => .ok ⟨bytes⟩
    | .error fault => .error (.network ("invalid share encoding: " ++ fault.message))

/-- What an answer comes to. -/
def judge (response : Response) : Verdict :=
  if response.status.isServerError then .retry ("server returned " ++ response.status.text)
  else if response.status.isClientError then
    .settled (.error (.rejected
      (response.status.text ++ ": " ++ Utf8.decodeLossy response.body)))
  else if response.status.code ≠ 200 then
    .settled (.error (.network ("unexpected status " ++ response.status.text)))
  else .settled (shareIn response.body)

/-- What an exchange comes to. -/
def verdict (target : Url) : Exchange → Verdict
  | .refused | .timedOut => .retry (undelivered target.text)
  | .dropped => .settled (.error (.network (undelivered target.text)))
  | .answered response => judge response

/-- What is said when no retry is left, after so many. The attempts are counted in thirty-two bits,
as the retries are. -/
def givingUp (retries : UInt32) (reason : String) : MediatorReply :=
  .error (.network ("giving up after " ++ toString (retries + 1) ++ " attempts: " ++ reason))

/-- One more than a number below another one still has room. -/
theorem toNat_add_one {n bound : UInt32} (h : n < bound) : (n + 1).toNat = n.toNat + 1 := by
  have hlt := UInt32.lt_iff_toNat_lt.mp h
  have hbound := bound.toNat_lt
  rw [UInt32.toNat_add, UInt32.toNat_one, Nat.mod_eq_of_lt (by omega)]

/-- The outcome of a call that took a pause before it. -/
def delayed (pause : Milliseconds) : MediatorOutcome → MediatorOutcome
  | .answered delay reply => .answered (pause + delay) reply
  | .silent => .silent

def message (target : String) (request : MediatorRequest) : Request :=
  ⟨"POST", target, some jsonType, Utf8.encodeString (Api.requestDocument request)⟩

variable {m : Type → Type} [Monad m]

def url (client : RemoteMediator m) : String := urlOn client.config.serverUrl Api.decryptPath

/-- The pause in front of a retry. -/
def backoff (client : RemoteMediator m) : Milliseconds := client.config.retryBackoff.toNat

def attempt (client : RemoteMediator m) (target : Url) (request : Request) : m Verdict := do
  return verdict target
    (← client.transport.send client.config.timeout.toNat target.host request)

/-- Sends a request until an attempt settles it or no retry is left; `retries` counts those so
far. -/
def call (client : RemoteMediator m) (target : Url) (request : Request) (retries : UInt32) :
    m MediatorOutcome := do
  match ← client.attempt target request with
  | .settled reply => return .answered 0 reply
  | .retry reason =>
    if h : retries < client.config.maxRetries then
      client.transport.pause client.backoff
      return delayed client.backoff (← client.call target request (retries + 1))
    else return .answered 0 (givingUp retries reason)
termination_by client.config.maxRetries.toNat - retries.toNat
decreasing_by
  have hlt : retries.toNat < client.config.maxRetries.toNat := UInt32.lt_iff_toNat_lt.mp h
  rw [toNat_add_one h]
  omega

/-- The mediator itself. A URL that cannot be called is no reason to try again. -/
def toMediator (client : RemoteMediator m) : Mediator m := fun request ↦ do
  match Url.callable client.transport.spelling client.url with
  | .error reason => return .answered 0 (.error (.network reason))
  | .ok target => client.call target (message target.target request) 0

end RemoteMediator

end DualSeal
