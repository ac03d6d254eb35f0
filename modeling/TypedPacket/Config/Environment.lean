import TypedPacket.Config.Basic
import TypedPacket.Text.Blank

/-!
# Configurations from variables

Variables change single settings of the default configuration. They are looked at in a fixed order,
and the first one that cannot be understood is named.
-/

set_option autoImplicit false
set_option relaxedAutoImplicit false

namespace TypedPacket

/-- A variable: its name, and how its value changes a configuration. A value that it does not
understand is given back as it is shown. -/
structure Variable where
  name : String
  change : String → Config → Except String Config

namespace Variable

def lower (words : String) : String := words.map Char.toLower

def sizeOf (words : String) : Except String UInt64 :=
  match Size.ofText? (Blank.trim words.toList) with
  | some size => .ok size
  | none => .error words

def maxPayloadSize : Variable where
  name := "STREAM_PACKET_MAX_PAYLOAD_SIZE"
  change words config := do
    let size ← sizeOf words
    .ok { config with factory.maxPayloadSize := size }

def structFormat : Variable where
  name := "STREAM_PACKET_STRUCT_FORMAT"
  change words config :=
    match Encoding.all.find? fun encoding => encoding.name == lower words with
    | some encoding => .ok { config with factory.structFormat := encoding }
    | none => .error (lower words)

def defaultSeries : Variable where
  name := "STREAM_PACKET_DEFAULT_SERIES"
  change words config := .ok { config with factory.defaultSeries := some words }

def compression : Variable where
  name := "STREAM_PACKET_COMPRESSION"
  change words config :=
    if lower words = "off" ∨ lower words = "none" then
      .ok { config with wire.compressionEnabled := false }
    else match CompressionKind.all.find? fun kind => kind.name == lower words with
      | some kind =>
        .ok { config with
          wire.compressionEnabled := true
          wire.compressionKind := kind }
      | none => .error (lower words)

def compressionThreshold : Variable where
  name := "STREAM_PACKET_COMPRESSION_THRESHOLD"
  change words config := do
    let size ← sizeOf words
    .ok { config with wire.compressionThreshold := size }

def logLevel : Variable where
  name := "STREAM_PACKET_LOG_LEVEL"
  change words config :=
    match LogLevel.ofText? words with
    | some level => .ok { config with logging.logLevel := level }
    | none => .error words

/-- The variables in the order in which they are looked at. -/
def all : List Variable :=
  [maxPayloadSize, structFormat, defaultSeries, compression, compressionThreshold, logLevel]

/-- Changes a configuration by the value of the variable, if it has one. -/
def apply (lookup : String → Option String) (config : Config) (setting : Variable) :
    Except ConfigFault Config :=
  match lookup setting.name with
  | none => .ok config
  | some words => (setting.change words config).mapError (.badVariable setting.name)

end Variable

/-- The default configuration as the variables change it. -/
def Config.ofVariables (lookup : String → Option String) : Except ConfigFault Config :=
  Variable.all.foldlM (Variable.apply lookup) .default

end TypedPacket
