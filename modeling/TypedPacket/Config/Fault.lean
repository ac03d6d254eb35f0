import TypedPacket.Config.Finding
import TypedPacket.Toml.Misfit

/-!
# Why a configuration is refused

The causes for which a configuration cannot be loaded, saved or used, with their wording.
-/

set_option autoImplicit false
set_option relaxedAutoImplicit false

namespace TypedPacket

/-- Why a file cannot be used. -/
inductive FileFault
  | notFound | isDirectory | notText
  deriving DecidableEq, Repr

def FileFault.message : FileFault → String
  | .notFound => "No such file or directory (os error 2)"
  | .isDirectory => "Is a directory (os error 21)"
  | .notText => "stream did not contain valid UTF-8"

/-- Why a configuration cannot be loaded, saved or used. -/
inductive ConfigFault
  | unopened (fault : FileFault)
  | unread (fault : FileFault)
  /-- The text is no document. -/
  | notDocument
  | misfit (cause : Toml.Misfit)
  /-- A size is beyond the integers of a document. -/
  | sizeOutOfRange
  | unsaved (fault : FileFault)
  | badVariable (name value : String)
  /-- Something is found in the configuration. -/
  | invalid (findings : List Finding)
  /-- Something is found in the logging section, for which alone it was validated. -/
  | invalidLogging (findings : List Finding)
  | logFileUnopened (fault : FileFault)
  /-- Log events already have a receiver. -/
  | alreadyLogging
  | stated (words : String)
  deriving DecidableEq, Repr

def ConfigFault.message : ConfigFault → String
  | .unopened fault => "Failed to open config file: " ++ fault.message
  | .unread fault => "Failed to read config file: " ++ fault.message
  | .notDocument => "Failed to parse TOML"
  | .misfit cause => "Failed to parse TOML: " ++ Toml.lastLine cause.message
  | .sizeOutOfRange => "Failed to serialize config: out-of-range value for u64 type"
  | .unsaved fault => "Failed to write config file: " ++ fault.message
  | .badVariable name value => "Invalid " ++ name ++ ": '" ++ value ++ "'"
  | .invalid findings =>
    "Configuration validation failed:\n  - " ++
      "\n  - ".intercalate (findings.map Finding.message)
  | .invalidLogging findings => "; ".intercalate (findings.map Finding.message)
  | .logFileUnopened fault => "Failed to open log file: " ++ fault.message
  | .alreadyLogging =>
    "Failed to install subscriber: a global default trace dispatcher has already been set"
  | .stated words => words

end TypedPacket
