import TypedPacket.Notice
import TypedPacket.Serializer

/-!
# Building packets

A factory turns a payload into a packet: it has the payload serialized, settles series and capture
time, and refuses a header that no frame could hold. What a serializer rejects reaches the caller
unchanged. Besides its result a build gives its notices.
-/

set_option autoImplicit false
set_option relaxedAutoImplicit false

namespace TypedPacket

/-- What a caller says about one packet. -/
structure PacketOptions where
  /-- The series, in place of the factory's. -/
  series : Option String
  metadata : TextMap
  /-- The capture time, in place of the clock. -/
  captureTime : Option UInt64
  deriving DecidableEq, Repr

namespace PacketOptions

def default : PacketOptions := ⟨none, .empty, none⟩

instance : Inhabited PacketOptions := ⟨default⟩

def withSeries (options : PacketOptions) (series : String) : PacketOptions :=
  { options with series := some series }

def withMetadata (options : PacketOptions) (key value : String) : PacketOptions :=
  { options with metadata := options.metadata.insert key value }

def withCaptureTime (options : PacketOptions) (time : UInt64) : PacketOptions :=
  { options with captureTime := some time }

end PacketOptions

/-- The clock: milliseconds since 1970, or why it cannot be read. -/
abbrev Clock := Except PacketError UInt64

/-- The settings of a factory. -/
structure FactorySettings where
  stampCaptureTime : Bool
  defaultSeries : Option String
  deriving DecidableEq, Repr

/-- Builds packets through a serializer. -/
structure Factory where
  settings : FactorySettings
  serializer : Serializer

/-- The most octets of a series name. -/
def maxSeriesSize : Nat := 256

/-- The status for a series name that is empty or too long. -/
def seriesStatus (name : String) : Status :=
  ⟨.invalidArgument, "series name must be 1..=" ++ toString maxSeriesSize ++ " bytes, got " ++
    toString name.utf8ByteSize⟩

/-- Refuses a series name that is empty or too long. -/
def checkSeries : Option String → Except PacketError Unit
  | none => .ok ()
  | some name =>
    if name.utf8ByteSize = 0 ∨ maxSeriesSize < name.utf8ByteSize then
      .error (.status (seriesStatus name))
    else .ok ()

/-- The status for a serializer that gives another kind than it was asked for. -/
def kindStatus (reported asked : PayloadKind) : Status :=
  ⟨.internal, "serializer reported " ++ reported.typeClass ++ " for a " ++ asked.typeClass ++
    " payload"⟩

namespace Factory

variable (factory : Factory)

/-- The capture time of a packet. -/
def captureTime (clock : Clock) (options : PacketOptions) : Except PacketError UInt64 :=
  match options.captureTime with
  | some time => .ok time
  | none => if factory.settings.stampCaptureTime then clock else .ok 0

/-- Puts a packet together from a serialized payload. -/
def assemble (clock : Clock) (options : PacketOptions) (serialized : SerializedPayload) :
    Except PacketError Packet := do
  let series := options.series.or factory.settings.defaultSeries
  checkSeries series
  let time ← factory.captureTime clock options
  let header : PacketHeader :=
    ⟨serialized.kind, serialized.typeDescriptor, time, series, options.metadata⟩
  header.checkSize
  .ok (.current header serialized.bytes)

/-- Builds a packet from a payload. -/
def build (clock : Clock) (options : PacketOptions) (payload : Payload) :
    Except PacketError Packet × List Notice :=
  match factory.serializer payload with
  | .error status => (.error (.status status), [.rejected payload.kind status])
  | .ok serialized =>
    if serialized.kind ≠ payload.kind then
      (.error (.status (kindStatus serialized.kind payload.kind)), [.kindChanged])
    else
      match factory.assemble clock options serialized with
      | .error error => (.error error, [])
      | .ok packet => (.ok packet, [.built payload.kind packet.payload.size])

/-- Builds a packet from a value of any type. -/
def make (clock : Clock) : Candidate → Except PacketError Packet × List Notice
  | .payload payload => factory.build clock .default payload
  | .foreign typeName =>
    let error := PacketError.unsupportedType typeName
    (.error error, [.foreignType error])

end Factory

/-! ### Time -/

/-- A span of time in milliseconds; the greatest word when it is longer. -/
def durationMillis (seconds nanoseconds : Nat) : UInt64 :=
  UInt64.ofNat (min (seconds * 1000 + nanoseconds / 1000000) (2 ^ 64 - 1))

/-- The clock for a time since 1970; a time before it cannot be told. -/
def Clock.ofElapsed : Option (Nat × Nat) → Clock
  | some (seconds, nanoseconds) => .ok (durationMillis seconds nanoseconds)
  | none => .error (.clock PacketError.clockText)

end TypedPacket
