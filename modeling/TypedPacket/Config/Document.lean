import TypedPacket.Config.Basic
import TypedPacket.Toml.Document
import TypedPacket.Toml.Record

/-!
# Configurations in documents

A configuration is read from a document, each section from the table of its name; a section that is
not there is the default one.
-/

set_option autoImplicit false
set_option relaxedAutoImplicit false

namespace TypedPacket

open Toml (Fit RecordType RecordField Value)

namespace FactoryConfig

def formatOf (value : Value) : Fit Encoding :=
  value.asChoice Encoding.choice.variants fun name =>
    Encoding.all.find? fun encoding => encoding.name == name

def recordType : RecordType FactoryConfig where
  name := "FactoryConfig"
  blank := default
  fields :=
    [⟨"max_payload_size", fun value config => do
        .ok { config with maxPayloadSize := ← value.asSize }, false⟩,
      ⟨"struct_format", fun value config => do
        .ok { config with structFormat := ← formatOf value }, false⟩,
      ⟨"stamp_capture_time", fun value config => do
        .ok { config with stampCaptureTime := ← value.asFlag }, false⟩,
      ⟨"default_series", fun value config => do
        .ok { config with defaultSeries := some (← value.asText) }, true⟩]

end FactoryConfig

namespace WireConfig

def kindOf (value : Value) : Fit CompressionKind :=
  value.asChoice CompressionKind.choice.variants fun name =>
    CompressionKind.all.find? fun kind => kind.name == name

/-- A threshold that is absent is zero. -/
def recordType : RecordType WireConfig where
  name := "WireConfig"
  blank := { default with compressionThreshold := 0 }
  fields :=
    [⟨"compression_enabled", fun value config => do
        .ok { config with compressionEnabled := ← value.asFlag }, false⟩,
      ⟨"compression_kind", fun value config => do
        .ok { config with compressionKind := ← kindOf value }, false⟩,
      ⟨"compression_threshold_bytes", fun value config => do
        .ok { config with compressionThreshold := ← value.asSize }, true⟩,
      ⟨"max_frame_payload", fun value config => do
        .ok { config with maxFramePayload := ← value.asSize }, false⟩]

end WireConfig

namespace LoggingConfig

def levelOf (value : Value) : Fit LogLevel := do
  let words ← value.asText
  match LogLevel.ofText? words with
  | some level => .ok level
  | none => .error (.level words)

def recordType : RecordType LoggingConfig where
  name := "LoggingConfig"
  blank := default
  fields :=
    [⟨"app_name", fun value config => do
        .ok { config with appName := ← value.asText }, false⟩,
      ⟨"log_level", fun value config => do
        .ok { config with logLevel := ← levelOf value }, false⟩,
      ⟨"log_to_console", fun value config => do
        .ok { config with logToConsole := ← value.asFlag }, false⟩,
      ⟨"log_to_file", fun value config => do
        .ok { config with logToFile := ← value.asFlag }, false⟩,
      ⟨"log_file_path", fun value config => do
        .ok { config with logFilePath := some (← value.asText) }, true⟩,
      ⟨"json_format", fun value config => do
        .ok { config with jsonFormat := ← value.asFlag }, false⟩]

end LoggingConfig

namespace Config

def recordType : RecordType Config where
  name := "BridgeConfig"
  blank := default
  fields :=
    [⟨"factory", fun value config => do
        .ok { config with factory := ← FactoryConfig.recordType.read value }, true⟩,
      ⟨"wire", fun value config => do
        .ok { config with wire := ← WireConfig.recordType.read value }, true⟩,
      ⟨"logging", fun value config => do
        .ok { config with logging := ← LoggingConfig.recordType.read value }, true⟩]

/-- The configuration of a document. -/
def ofText (text : String) : Except ConfigFault Config :=
  match Toml.document? text with
  | none => .error .notDocument
  | some entries => (recordType.ofEntries entries).mapError .misfit

end Config

end TypedPacket
