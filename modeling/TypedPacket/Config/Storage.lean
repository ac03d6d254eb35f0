import TypedPacket.Config.Document
import TypedPacket.Text.Utf8
import TypedPacket.Toml.Writer

/-!
# Configurations in files

A configuration is written as a document with all its settings, absent ones apart, and read back from
what is found at a path.
-/

set_option autoImplicit false
set_option relaxedAutoImplicit false

namespace TypedPacket

open Toml (Section)

/-- A text setting that may be absent. -/
def optionalSetting (name : String) : Option String → List (String × Toml.Setting)
  | none => []
  | some words => [(name, .text words)]

def FactoryConfig.settings (config : FactoryConfig) : List (String × Toml.Setting) :=
  [("max_payload_size", .size config.maxPayloadSize),
    ("struct_format", .text config.structFormat.name),
    ("stamp_capture_time", .flag config.stampCaptureTime)] ++
  optionalSetting "default_series" config.defaultSeries

def WireConfig.settings (config : WireConfig) : List (String × Toml.Setting) :=
  [("compression_enabled", .flag config.compressionEnabled),
    ("compression_kind", .text config.compressionKind.name),
    ("compression_threshold_bytes", .size config.compressionThreshold),
    ("max_frame_payload", .size config.maxFramePayload)]

def LoggingConfig.settings (config : LoggingConfig) : List (String × Toml.Setting) :=
  [("app_name", .text config.appName), ("log_level", .text config.logLevel.name),
    ("log_to_console", .flag config.logToConsole), ("log_to_file", .flag config.logToFile)] ++
  optionalSetting "log_file_path" config.logFilePath ++
  [("json_format", .flag config.jsonFormat)]

/-- What is found at a path. -/
inductive FileContent
  | missing
  | directory
  | octets (content : ByteArray)

namespace Config

def sections (config : Config) : List Section :=
  [⟨"factory", config.factory.settings⟩, ⟨"wire", config.wire.settings⟩,
    ⟨"logging", config.logging.settings⟩]

/-- The document of a configuration. -/
def toText (config : Config) : Except ConfigFault String :=
  match Section.writeAll config.sections with
  | some words => .ok (String.ofList words)
  | none => .error .sizeOutOfRange

/-- The document of the default configuration, as an example. -/
def exampleText : String :=
  match default.toText with
  | .ok text => text
  | .error _ => "# Failed to generate example config"

/-- What is written to a file, unless something stands in the way. -/
def save (config : Config) (obstacle : Option FileFault) : Except ConfigFault String := do
  let text ← config.toText
  match obstacle with
  | some fault => .error (.unsaved fault)
  | none => .ok text

/-- The configuration of a file. -/
def load : FileContent → Except ConfigFault Config
  | .missing => .error (.unopened .notFound)
  | .directory => .error (.unread .isDirectory)
  | .octets content =>
    match Utf8.decode content with
    | .ok text => ofText text
    | .error _ => .error (.unread .notText)

end Config

end TypedPacket
