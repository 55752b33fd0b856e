import DualSeal.Config.Basic

/-!
# Options of the command line

What is said on the command line goes before what the configuration says.
-/

namespace DualSeal

/-- What a command line says. -/
structure Options where
  config : Option Path
  listen : Option SocketAddress
  keyDir : Option Path
  sharedKeyId : Option KeyId

/-- What is wrong with a command line. -/
inductive OptionFault where
  | unknown (option : String)
  | missingValue (option : String)
  | badAddress (text : String)
  deriving DecidableEq

def OptionFault.message : OptionFault → String
  | .unknown option => "unexpected argument " ++ option
  | .missingValue option => "a value is required for " ++ option
  | .badAddress text => "invalid socket address " ++ text

namespace Options

def empty : Options := ⟨none, none, none, none⟩

/-- The options with one more. -/
def set (options : Options) (option value : String) : Except OptionFault Options :=
  if option = "--config" ∨ option = "-c" then .ok { options with config := some ⟨value⟩ }
  else if option = "--listen" ∨ option = "-l" then
    match SocketAddress.ofText? value with
    | some address => .ok { options with listen := some address }
    | none => .error (.badAddress value)
  else if option = "--key-dir" ∨ option = "-k" then
    .ok { options with keyDir := some ⟨value⟩ }
  else if option = "--shared-key-id" then .ok { options with sharedKeyId := some ⟨value⟩ }
  else .error (.unknown option)

/-- Reads a command line, in which a value follows every option. -/
def ofArguments (options : Options) : List String → Except OptionFault Options
  | [] => .ok options
  | [option] => .error (.missingValue option)
  | option :: value :: rest => do
    let options ← options.set option value
    options.ofArguments rest

/-- A configuration with what the options say instead. -/
def apply (options : Options) (config : Config) : Config :=
  { config with server := {
      listen := options.listen.getD config.server.listen
      keyDir := options.keyDir.getD config.server.keyDir
      sharedKeyId := options.sharedKeyId.or config.server.sharedKeyId } }

end Options

end DualSeal
