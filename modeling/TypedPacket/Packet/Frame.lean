import TypedPacket.Compression.Basic
import TypedPacket.Packet.Header

/-!
# Packets and their frames

A packet is a header with the octets of a payload, and never changes. On the wire it is one frame:

    magic "VAPK" (4) | version (1) | flag (1) | header size (4) | body size (4) | header | body

Both sizes have their most significant octet first. The flag tells how the body expands to the
payload: not at all, by LZ4 or by Zstandard. Packets in memory are never compressed.
-/

set_option autoImplicit false
set_option relaxedAutoImplicit false

namespace TypedPacket

/-- An immutable packet. -/
structure Packet where
  /-- The version of the wire format that it is written in. -/
  version : UInt8
  header : PacketHeader
  /-- The serialized payload. -/
  payload : ByteArray
  deriving DecidableEq

/-- How packets go on the wire. -/
structure WireOptions where
  compression : Option CompressionKind
  /-- Payloads of fewer octets are never compressed. -/
  threshold : Nat
  /-- The most octets of a body, and of a payload that is read. -/
  maxPayloadSize : Nat
  deriving DecidableEq, Repr

/-- The most octets of a payload, unless other options are given. -/
def maxPayloadSize : Nat := 16 * 1024 * 1024

namespace WireOptions

def default : WireOptions := ⟨none, 512, TypedPacket.maxPayloadSize⟩

instance : Inhabited WireOptions := ⟨default⟩

end WireOptions

/-! ### The prefix of a frame -/

/-- What stands before the header of a frame. -/
structure FramePrefix where
  compression : Option CompressionKind
  headerSize : Nat
  bodySize : Nat
  deriving DecidableEq, Repr

namespace FramePrefix

/-- The octets that every frame starts with. -/
def magic : List UInt8 := [0x56, 0x41, 0x50, 0x4B]

/-- The version of the wire format. -/
def version : UInt8 := 1

/-- The octets of a prefix. -/
def size : Nat := 14

def flag : Option CompressionKind → UInt8
  | none => 0
  | some .lz4 => 1
  | some .zstd => 2

/-- The compression of a flag. -/
def ofFlag? (octet : UInt8) : Option (Option CompressionKind) :=
  [none, some .lz4, some .zstd].find? fun compression => flag compression == octet

theorem ofFlag?_flag (compression : Option CompressionKind) :
    ofFlag? (flag compression) = some compression := by
  rcases compression with _ | _ | _ <;> decide

/-- The octets of the frame that the prefix announces. -/
def frameSize (pre : FramePrefix) : Nat := size + pre.headerSize + pre.bodySize

/-- The octets of a prefix, with a version. -/
def write (pre : FramePrefix) (version : UInt8) : List UInt8 :=
  magic ++ [version, flag pre.compression] ++ bigEndian 4 pre.headerSize ++ bigEndian 4 pre.bodySize

/-- Reads the octets of a prefix, checking field after field. -/
def read (limit : Nat) : List UInt8 → Except PacketError FramePrefix
  | [m0, m1, m2, m3, found, octet, h0, h1, h2, h3, b0, b1, b2, b3] =>
    if [m0, m1, m2, m3] ≠ magic then .error .invalidHeader
    else if found ≠ version then .error (.unsupportedVersion found)
    else match ofFlag? octet with
      | none => .error .invalidHeader
      | some compression =>
        let headerSize := ofBigEndian [h0, h1, h2, h3]
        let bodySize := ofBigEndian [b0, b1, b2, b3]
        if headerSize = 0 ∨ PacketHeader.maxSize < headerSize then .error .invalidHeader
        else if limit < bodySize then .error (.oversized bodySize)
        else .ok ⟨compression, headerSize, bodySize⟩
  | _ => .error .invalidHeader

/-- The prefix at the front of the octets; none if they are too few. -/
def parse (limit : Nat) (bytes : ByteArray) : Except PacketError (Option FramePrefix) :=
  if bytes.size < size then .ok none
  else (read limit (octets (bytes.extract 0 size))).map some

end FramePrefix

/-! ### Frames -/

namespace Packet

/-- A packet in the version of the wire format. -/
def current (header : PacketHeader) (payload : ByteArray) : Packet :=
  ⟨FramePrefix.version, header, payload⟩

def kind (packet : Packet) : PayloadKind := packet.header.kind

/-- A packet ready for the wire. -/
structure Prepared where
  version : UInt8
  compression : Option CompressionKind
  header : ByteArray
  body : ByteArray

/-- The octets of a frame. -/
def Prepared.bytes (frame : Prepared) : ByteArray :=
  (FramePrefix.write ⟨frame.compression, frame.header.size, frame.body.size⟩
    frame.version).toByteArray ++ frame.header ++ frame.body

/-- The body and how it is compressed, if at all. -/
def body (compressors : Compressors) (options : WireOptions) (packet : Packet) :
    Except PacketError (Option CompressionKind × ByteArray) :=
  match options.compression with
  | none => .ok (none, packet.payload)
  | some kind => do
    match ← compressors.compressIfBeneficial kind options.threshold packet.payload with
    | some small => .ok (some kind, small)
    | none => .ok (none, packet.payload)

/-- Encodes the header, decides on compression and checks the size of the body, in this order. -/
def prepare (compressors : Compressors) (options : WireOptions) (packet : Packet) :
    Except PacketError Prepared := do
  let header ← packet.header.encode
  let (compression, body) ← packet.body compressors options
  if options.maxPayloadSize < body.size then .error (.oversized body.size)
  else .ok ⟨packet.version, compression, header, body⟩

/-- The frame of a packet. -/
def toFrame (compressors : Compressors) (options : WireOptions) (packet : Packet) :
    Except PacketError ByteArray := do
  let frame ← packet.prepare compressors options
  .ok frame.bytes

/-- Appends the frame of a packet to a buffer, and tells whether the payload was compressed. Where
there is no frame the buffer stays as it was. -/
def appendFrame (compressors : Compressors) (options : WireOptions) (packet : Packet)
    (buffer : ByteArray) : Except PacketError Bool × ByteArray :=
  match packet.prepare compressors options with
  | .error error => (.error error, buffer)
  | .ok frame => (.ok frame.compression.isSome, buffer ++ frame.bytes)

/-- The packet of a frame that spans the octets. The limit holds for the body and for the payload. -/
def ofFrame (compressors : Compressors) (limit : Nat) (bytes : ByteArray) :
    Except PacketError Packet := do
  match ← FramePrefix.parse limit bytes with
  | none => .error .invalidHeader
  | some pre =>
    if bytes.size ≠ pre.frameSize then .error .invalidHeader
    else do
      let bodyStart := FramePrefix.size + pre.headerSize
      let header ← PacketHeader.decode (bytes.extract FramePrefix.size bodyStart)
      let body := bytes.extract bodyStart bytes.size
      match pre.compression with
      | none => .ok ⟨octetAt bytes 4, header, body⟩
      | some kind => do
        let payload ← compressors.expandWithin kind limit body
        .ok ⟨octetAt bytes 4, header, payload⟩

end Packet

end TypedPacket
