import DualSeal.Bytes
import DualSeal.Config.Basic
import DualSeal.Config.Document
import DualSeal.Config.File
import DualSeal.Crypto.Gcm
import DualSeal.Crypto.Hkdf
import DualSeal.Crypto.P256
import DualSeal.Encoding.Base64
import DualSeal.Encoding.Der
import DualSeal.Encoding.Hex
import DualSeal.Encoding.Pem
import DualSeal.Entries
import DualSeal.Envelope.Description
import DualSeal.Envelope.Inquiry
import DualSeal.Envelope.Plan
import DualSeal.Files.Tree
import DualSeal.Http.MediaType
import DualSeal.Http.Message
import DualSeal.Http.Text
import DualSeal.Http.Url
import DualSeal.Json.Record
import DualSeal.Json.Writer
import DualSeal.Keys.Cache
import DualSeal.Keys.KeyPair
import DualSeal.Keys.Lookup
import DualSeal.Keys.Registry
import DualSeal.Keys.Remote
import DualSeal.Keys.SharedKey
import DualSeal.Keys.Store.Directory
import DualSeal.Keys.Store.Memory
import DualSeal.Main
import DualSeal.Mediator.Local
import DualSeal.Mediator.Remote
import DualSeal.Network.Address
import DualSeal.Project.Secrets
import DualSeal.Proofs.Chunks
import DualSeal.Proofs.Config.Document
import DualSeal.Proofs.Config.File
import DualSeal.Proofs.Crypto.Gcm
import DualSeal.Proofs.Crypto.Multiples
import DualSeal.Proofs.Crypto.Order
import DualSeal.Proofs.Crypto.Points
import DualSeal.Proofs.Crypto.Prime
import DualSeal.Proofs.Crypto.Roots
import DualSeal.Proofs.Encoding.Base64
import DualSeal.Proofs.Encoding.Der
import DualSeal.Proofs.Encoding.Pem
import DualSeal.Proofs.Envelope.Addressing
import DualSeal.Proofs.Envelope.Contact
import DualSeal.Proofs.Envelope.Contents
import DualSeal.Proofs.Envelope.Decryption
import DualSeal.Proofs.Envelope.Failures
import DualSeal.Proofs.Envelope.Influence
import DualSeal.Proofs.Envelope.Resolution
import DualSeal.Proofs.Envelope.RoundTrip
import DualSeal.Proofs.Envelope.Secrecy
import DualSeal.Proofs.Envelope.Tampering
import DualSeal.Proofs.Files.Directory
import DualSeal.Proofs.Http.Url
import DualSeal.Proofs.Json.Layout
import DualSeal.Proofs.Json.Record
import DualSeal.Proofs.Json.Strings
import DualSeal.Proofs.Keys.Cache
import DualSeal.Proofs.Keys.Encodings
import DualSeal.Proofs.Keys.Interchange
import DualSeal.Proofs.Keys.Precache
import DualSeal.Proofs.Keys.Remote
import DualSeal.Proofs.Keys.SharedKey
import DualSeal.Proofs.Keys.Storage
import DualSeal.Proofs.Keys.Store
import DualSeal.Proofs.Keys.Text
import DualSeal.Proofs.Mediator.Agreement
import DualSeal.Proofs.Mediator.Retries
import DualSeal.Proofs.Network.Address
import DualSeal.Proofs.Project.AllOrNothing
import DualSeal.Proofs.Project.Calls
import DualSeal.Proofs.Project.Changes
import DualSeal.Proofs.Project.Decryption
import DualSeal.Proofs.Project.Document
import DualSeal.Proofs.Project.File
import DualSeal.Proofs.Project.Interleaving
import DualSeal.Proofs.Project.Recipients
import DualSeal.Proofs.Project.Repository
import DualSeal.Proofs.Project.Rotation
import DualSeal.Proofs.Project.Simulation
import DualSeal.Proofs.Secret.Canonicity
import DualSeal.Proofs.Secret.Ciphertexts
import DualSeal.Proofs.Secret.Grammar
import DualSeal.Proofs.Secret.Hpke
import DualSeal.Proofs.Secret.Wire
import DualSeal.Proofs.Server.Registration
import DualSeal.Proofs.Server.Requests
import DualSeal.Proofs.Text.Numeral
import DualSeal.Proofs.Text.Utf8
import DualSeal.Proofs.Threshold.Combination
import DualSeal.Proofs.Threshold.Field
import DualSeal.Proofs.Threshold.Influence
import DualSeal.Proofs.Threshold.Interpolation
import DualSeal.Proofs.Threshold.Reconstruction
import DualSeal.Proofs.Threshold.Secrecy
import DualSeal.Proofs.Toml.Document
import DualSeal.Proofs.Toml.Statement
import DualSeal.Proofs.Toml.Text
import DualSeal.Secret.Hpke
import DualSeal.Secret.Wire
import DualSeal.Server.Api
import DualSeal.Server.Basic
import DualSeal.Server.Options
import DualSeal.Server.Router
import DualSeal.Text.Blank
import DualSeal.Text.Numeral
import DualSeal.Text.Quoted
import DualSeal.Text.Utf8
import DualSeal.Text.Visible
import DualSeal.Threshold.Shamir
import DualSeal.Toml.Document
import DualSeal.Toml.Scalar
import DualSeal.Toml.Statement
import DualSeal.Toml.Text
import DualSeal.Toml.Value
