import DualSeal.Files.Path
import DualSeal.Keys.KeyId
import DualSeal.Network.Address
import DualSeal.Text.Duration

/-!
# Configuration

What a server needs to know: where it listens, where its keys are, and which of them it shares. What
a client needs to know: where the server is, and how patient to be.
-/

namespace DualSeal

structure ServerConfig where
  listen : SocketAddress
  keyDir : Path
  sharedKeyId : Option KeyId
  deriving DecidableEq

structure ClientConfig where
  serverUrl : String
  timeout : UInt64
  maxRetries : UInt32
  retryBackoff : UInt64
  deriving DecidableEq

structure Config where
  server : ServerConfig
  client : ClientConfig
  deriving DecidableEq

def ServerConfig.default : ServerConfig := ⟨.v4 ⟨127, 0, 0, 1⟩ 8600, ⟨"keys"⟩, none⟩

def ClientConfig.default : ClientConfig := ⟨"http://127.0.0.1:8600", 10000, 2, 200⟩

/-- The configuration where nothing is said. -/
def Config.default : Config := ⟨.default, .default⟩

/-- Whether two configurations mean the same: they agree but for the spelling of the directory. -/
def Config.isSame (a b : Config) : Bool :=
  a.client = b.client && a.server.listen = b.server.listen &&
    a.server.keyDir.spelling = b.server.keyDir.spelling &&
    a.server.sharedKeyId = b.server.sharedKeyId

end DualSeal
