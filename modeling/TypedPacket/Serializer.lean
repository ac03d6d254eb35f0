import TypedPacket.Encoding.Basic
import TypedPacket.Error
import TypedPacket.Packet.Frame

/-!
# Serializing payloads

A serializer is a function from payloads to octets that may answer with a status instead. The standard
one stores a text as its UTF-8 octets, octets as they are, a structured value behind the tag of its
encoding and an image in the fixed-width layout; it refuses what is malformed and what is too large.
`Payload.read` goes the other way.
-/

set_option autoImplicit false
set_option relaxedAutoImplicit false

namespace TypedPacket

/-- The octets of a payload with its kind and type descriptor. -/
structure SerializedPayload where
  kind : PayloadKind
  typeDescriptor : Option String
  bytes : ByteArray
  deriving DecidableEq

/-- Turns payloads into octets. -/
abbrev Serializer := Payload → Except Status SerializedPayload

/-- The settings of the standard serializer. -/
structure StandardSerializer where
  maxPayloadSize : Nat
  /-- The encoding of structured values. -/
  structEncoding : Encoding
  deriving DecidableEq, Repr

namespace StandardSerializer

def default : StandardSerializer := ⟨TypedPacket.maxPayloadSize, .json⟩

variable (serializer : StandardSerializer)

/-- Refuses more octets than the limit. -/
def checkSize (size : Nat) : Except Status Unit :=
  if serializer.maxPayloadSize < size then
    .error ⟨.resourceExhausted, PacketError.payloadTooLargeText ++ ": " ++ toString size ++
      " bytes (limit " ++ toString serializer.maxPayloadSize ++ ")"⟩
  else .ok ()

/-- The status for an image whose data is not its pixels. -/
def inconsistent (image : RawImage) : Status :=
  ⟨.invalidArgument, imageDimensionsText ++ ": " ++ toString image.width.toNat ++ "x" ++
    toString image.height.toNat ++ " " ++ image.format.name ++ " with " ++
    toString image.data.size ++ " bytes"⟩

/-- Serializes a payload. The data of an image is measured before it is copied. -/
def serialize : Serializer
  | .text value => do
    let bytes := value.toUTF8
    serializer.checkSize bytes.size
    .ok ⟨.text, none, bytes⟩
  | .binary value => do
    serializer.checkSize value.size
    .ok ⟨.binary, none, value⟩
  | .struct value =>
    if serializer.structEncoding.isSelfDescribing then do
      let bytes := writeTagged serializer.structEncoding value
      serializer.checkSize bytes.size
      .ok ⟨.struct, some serializer.structEncoding.name, bytes⟩
    else .error ⟨.invalidArgument, PacketError.untypedStructText⟩
  | .rawImage image =>
    if image.isConsistent then do
      serializer.checkSize image.data.size
      let bytes := Encodable.write .fixedWidth image
      serializer.checkSize bytes.size
      .ok ⟨.rawImage, some image.format.name, bytes⟩
    else .error (inconsistent image)

end StandardSerializer

/-! ### Reading payloads -/

def readText (bytes : ByteArray) : Except PacketError String :=
  match Utf8.decode bytes with
  | .ok text => .ok text
  | .error fault => .error (.unreadable (.text fault))

def readStruct (bytes : ByteArray) : Except PacketError Json.Value :=
  match readTagged bytes with
  | .ok (value, _) => .ok value
  | .error fault => .error (.unreadable fault)

def readImage (bytes : ByteArray) : Except PacketError RawImage :=
  match (Encodable.read .fixedWidth bytes : Except ReadFault RawImage) with
  | .ok image =>
    if image.isConsistent then .ok image else .error (.unreadable .imageDimensions)
  | .error fault => .error (.unreadable fault)

/-- The payload of a kind that the octets hold. -/
def Payload.read (kind : PayloadKind) (bytes : ByteArray) : Except PacketError Payload :=
  match kind with
  | .text => (readText bytes).map .text
  | .binary => .ok (.binary bytes)
  | .struct => (readStruct bytes).map .struct
  | .rawImage => (readImage bytes).map .rawImage

namespace Packet

variable (packet : Packet)

/-- Reads the payload of a packet. -/
def readPayload : Except PacketError Payload := Payload.read packet.kind packet.payload

/-- Refuses a packet of another kind. -/
def expectKind (expected : PayloadKind) : Except PacketError Unit :=
  if packet.kind = expected then .ok () else .error (.kindMismatch expected packet.kind)

def asText : Except PacketError String := do
  packet.expectKind .text
  readText packet.payload

def asBinary : Except PacketError ByteArray := do
  packet.expectKind .binary
  .ok packet.payload

def asStruct : Except PacketError Json.Value := do
  packet.expectKind .struct
  readStruct packet.payload

def asRawImage : Except PacketError RawImage := do
  packet.expectKind .rawImage
  readImage packet.payload

end Packet

end TypedPacket
