import DualSeal.Files.Tree
import DualSeal.Keys.KeyId

/-!
# Key stores

A key store keeps the texts of keys by kind and id. It is a pair of functions on the state that it
keeps them in: a look changes nothing, and neither does a put that fails.
-/

namespace DualSeal

/-- The two kinds of key texts. -/
inductive KeyKind where
  | priv
  | pub
  deriving DecidableEq, Repr

/-- The word for a kind in stored names. -/
def KeyKind.word : KeyKind → String
  | .priv => "priv"
  | .pub => "pub"

/-- Why an id cannot name a stored key. -/
inductive KeyIdFault where
  | empty
  | unsupported (id : KeyId)
  deriving DecidableEq, Repr

def KeyIdFault.message : KeyIdFault → String
  | .empty => "key id must not be empty"
  | .unsupported id => "key id contains unsupported characters: " ++ id.text

/-- Why a key store gives or takes no text. -/
inductive KeyStoreError where
  | notFound (id : KeyId)
  | invalidKeyId (fault : KeyIdFault)
  | storage (fault : FileFault)
  deriving DecidableEq, Repr

def KeyStoreError.message : KeyStoreError → String
  | .notFound id => "key not found: " ++ id.text
  | .invalidKeyId fault => "invalid key id: " ++ fault.message
  | .storage fault => "storage error: " ++ fault.message

/-- A store of key texts with states in `σ`. -/
structure KeyStore (σ : Type) where
  put : KeyKind → KeyId → (text : String) → σ → Except KeyStoreError σ
  get : KeyKind → KeyId → σ → Except KeyStoreError String

end DualSeal
