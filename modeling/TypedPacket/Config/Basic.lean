import TypedPacket.Config.Level
import TypedPacket.Factory

/-!
# Configurations

The settings of a program that sends packets, in three sections: how packets are built, how they go
on the wire, and what is logged. The sections give the factory, the wire options and the log they
stand for.
-/

set_option autoImplicit false
set_option relaxedAutoImplicit false

namespace TypedPacket

/-- How packets are built. -/
structure FactoryConfig where
  maxPayloadSize : UInt64
  structFormat : Encoding
  stampCaptureTime : Bool
  defaultSeries : Option String
  deriving DecidableEq, Repr

namespace FactoryConfig

def default : FactoryConfig := ⟨UInt64.ofNat TypedPacket.maxPayloadSize, .json, true, none⟩

instance : Inhabited FactoryConfig := ⟨default⟩

/-- The serializer of the section. -/
def serializer (config : FactoryConfig) : StandardSerializer :=
  ⟨config.maxPayloadSize.toNat, config.structFormat⟩

/-- The factory of the section, with a serializer of its own. -/
def factoryWith (config : FactoryConfig) (serializer : Serializer) : Factory :=
  ⟨⟨config.stampCaptureTime, config.defaultSeries⟩, serializer⟩

/-- The factory of the section. -/
def factory (config : FactoryConfig) : Factory :=
  config.factoryWith config.serializer.serialize

end FactoryConfig

/-- How packets go on the wire. -/
structure WireConfig where
  compressionEnabled : Bool
  compressionKind : CompressionKind
  compressionThreshold : UInt64
  maxFramePayload : UInt64
  deriving DecidableEq, Repr

namespace WireConfig

def default : WireConfig := ⟨false, .lz4, 512, UInt64.ofNat maxPayloadSize⟩

instance : Inhabited WireConfig := ⟨default⟩

/-- The wire options of the section. -/
def wireOptions (config : WireConfig) : WireOptions :=
  ⟨if config.compressionEnabled then some config.compressionKind else none,
    config.compressionThreshold.toNat, config.maxFramePayload.toNat⟩

end WireConfig

/-- What is logged, and where. -/
structure LoggingConfig where
  appName : String
  logLevel : LogLevel
  logToConsole : Bool
  logToFile : Bool
  logFilePath : Option String
  jsonFormat : Bool
  deriving DecidableEq, Repr

namespace LoggingConfig

def default : LoggingConfig := ⟨"stream-packet", .info, true, false, none, false⟩

instance : Inhabited LoggingConfig := ⟨default⟩

end LoggingConfig

structure Config where
  factory : FactoryConfig
  wire : WireConfig
  logging : LoggingConfig
  deriving DecidableEq, Repr

namespace Config

def default : Config := ⟨.default, .default, .default⟩

instance : Inhabited Config := ⟨default⟩

end Config

end TypedPacket
