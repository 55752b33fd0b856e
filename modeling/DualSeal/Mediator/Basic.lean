import DualSeal.Secret.Basic
import DualSeal.Text.Duration

/-!
# Mediators

A mediator opens shards of the shared key on request, for callers who never hold that key. A call
may take time, or never end; how it ends is therefore an outcome with a delay, and giving up is
left to the caller.
-/

namespace DualSeal

/-- What a mediator is asked: to open the value of a shard addressed to a key. -/
structure MediatorRequest where
  value : String
  keyId : KeyId
  deriving DecidableEq, Repr

/-- Why a mediator gives no share. -/
inductive MediatorError where
  /-- The server was not reached, or did not answer as agreed. -/
  | network (reason : String)
  /-- The server refused. -/
  | rejected (reason : String)
  deriving DecidableEq, Repr

def MediatorError.message : MediatorError → String
  | .network reason => "network error: " ++ reason
  | .rejected reason => "rejected by server: " ++ reason

/-- What a mediator answers. -/
abbrev MediatorReply := Except MediatorError Share

/-- How a call ends. -/
inductive MediatorOutcome where
  /-- It is answered after a delay. -/
  | answered (delay : Milliseconds) (reply : MediatorReply)
  /-- It is never answered. -/
  | silent

/-- The reply that arrives within a span of time; one that arrives at its very end still does. -/
def MediatorOutcome.within? (timeout : Milliseconds) : MediatorOutcome → Option MediatorReply
  | .answered delay reply => if delay ≤ timeout then some reply else none
  | .silent => none

/-- A mediator whose calls act in `m`. -/
abbrev Mediator (m : Type → Type) := MediatorRequest → m MediatorOutcome

/-- A mediator that answers at once, and depends on the request only. -/
def Mediator.ofReply {m : Type → Type} [Monad m] (reply : MediatorRequest → MediatorReply) :
    Mediator m :=
  fun request ↦ pure (.answered 0 (reply request))

end DualSeal
