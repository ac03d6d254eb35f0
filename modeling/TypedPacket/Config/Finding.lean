/-!
# Findings

What the validation of a configuration finds, with the text of each finding.
-/

set_option autoImplicit false
set_option relaxedAutoImplicit false

namespace TypedPacket

inductive Finding
  | noPayload
  | payloadTooLarge (size limit : Nat)
  /-- Structured payloads in this format cannot be read back. -/
  | unreadableFormat (name : String)
  | emptySeries
  | seriesTooLong (size limit : Nat)
  | noFramePayload
  | framePayloadTooLarge (size limit : Nat)
  | thresholdTooLarge
  | emptyName
  | nameTooLong (size limit : Nat)
  | noLogDirectory (path : String)
  | noLogFile
  | noLogOutput
  /-- The factory may build packets that no frame may hold. -/
  | payloadBeyondFrame (payload frame : Nat)
  deriving DecidableEq, Repr

namespace Finding

/-- The most octets of an application's name. -/
def maxNameSize : Nat := 64

def tooLarge (what : String) (size limit : Nat) : String :=
  what ++ " too large: " ++ toString size ++ " bytes (wire limit: " ++ toString limit ++ ")"

def tooLong (what : String) (size limit : Nat) : String :=
  what ++ " too long: " ++ toString size ++ " characters (maximum: " ++ toString limit ++ ")"

def message : Finding → String
  | .noPayload => "Max payload size cannot be 0"
  | .payloadTooLarge size limit => tooLarge "Max payload size" size limit
  | .unreadableFormat name =>
    "Struct format '" ++ name ++ "' is not self-describing (use json or msgpack)"
  | .emptySeries => "Default series name cannot be empty"
  | .seriesTooLong size limit => tooLong "Default series name" size limit
  | .noFramePayload => "Max frame payload cannot be 0"
  | .framePayloadTooLarge size limit => tooLarge "Max frame payload" size limit
  | .thresholdTooLarge => "Compression threshold cannot be larger than max frame payload"
  | .emptyName => "Application name cannot be empty"
  | .nameTooLong size limit => tooLong "Application name" size limit
  | .noLogDirectory path => "Log file directory does not exist: " ++ path
  | .noLogFile => "log_file_path must be specified when log_to_file is true"
  | .noLogOutput => "At least one logging output (console or file) must be enabled"
  | .payloadBeyondFrame payload frame =>
    "Factory max payload size (" ++ toString payload ++ ") exceeds wire frame limit (" ++
      toString frame ++ ")"

end Finding

end TypedPacket
