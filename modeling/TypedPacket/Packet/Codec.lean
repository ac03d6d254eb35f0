import TypedPacket.Notice
import TypedPacket.Packet.Frame

/-!
# Packets on a stream

A codec appends frames to a buffer and takes packets from its front. The prefix of a frame is checked
as soon as it is there; a frame is taken from the buffer when all of it is, and is then gone whether
or not it holds a packet. A bad prefix stays where it is.

`Codec.items` reads a closed stream that came in pieces: its packets, and at most one error at the end.
-/

set_option autoImplicit false
set_option relaxedAutoImplicit false

namespace TypedPacket

/-- The wire options of one end of a stream, with its compressors. -/
structure Codec where
  compressors : Compressors
  options : WireOptions

namespace Codec

variable (codec : Codec)

/-- Appends the frame of a packet to the buffer, and tells what was done. -/
def append (packet : Packet) (buffer : ByteArray) : Except PacketError (List Notice) × ByteArray :=
  match packet.appendFrame codec.compressors codec.options buffer with
  | (.error error, after) => (.error error, after)
  | (.ok compressed, after) =>
    (.ok [.encoded codec.options.compression.isSome compressed], after)

/-- The buffer with the frame of a packet at its end, and what was done. -/
def encode (packet : Packet) (buffer : ByteArray) :
    Except PacketError (ByteArray × List Notice) :=
  match codec.append packet buffer with
  | (.error error, _) => .error error
  | (.ok notices, after) => .ok (after, notices)

/-- Takes the packet at the front of the buffer, if all of its frame is there. -/
def take (buffer : ByteArray) : Except PacketError (Option Packet) × ByteArray :=
  match FramePrefix.parse codec.options.maxPayloadSize buffer with
  | .error error => (.error error, buffer)
  | .ok none => (.ok none, buffer)
  | .ok (some pre) =>
    if buffer.size < pre.frameSize then (.ok none, buffer)
    else
      let frame := buffer.extract 0 pre.frameSize
      let rest := buffer.extract pre.frameSize buffer.size
      ((Packet.ofFrame codec.compressors codec.options.maxPayloadSize frame).map some, rest)

/-- What there is to tell of an attempt to take a packet. -/
def notices : Except PacketError (Option Packet) × ByteArray → List Notice
  | (.ok none, _) => []
  | (.ok (some packet), _) => [.decoded packet.kind packet.payload.size]
  | (.error error, rest) => [.undecodable error rest.size]

/-- Takes a packet from a buffer that no more octets will reach: what is left over is an error, which
is not one of a frame and has no notice. -/
def takeLast (buffer : ByteArray) :
    (Except PacketError (Option Packet) × ByteArray) × List Notice :=
  let outcome := codec.take buffer
  match outcome with
  | (.ok none, rest) =>
    if rest.size = 0 then ((.ok none, rest), []) else ((.error .cutOff, rest), [])
  | outcome => (outcome, notices outcome)

/-- How taking packets from a buffer ends: with the octets to keep, or with an error. -/
abbrev Tail := Except PacketError ByteArray

/-- Takes all the packets that are there. A packet leaves fewer octets than there were. -/
def takeAll (buffer : ByteArray) (sofar : List Packet) : List Packet × Tail :=
  match codec.take buffer with
  | (.error error, _) => (sofar, .error error)
  | (.ok none, rest) => (sofar, .ok rest)
  | (.ok (some packet), rest) =>
    if rest.size < buffer.size then takeAll rest (packet :: sofar) else (sofar, .ok rest)
termination_by buffer.size

/-- Feeds pieces of a stream one after another, until the first error. -/
def feed : List ByteArray → ByteArray → List Packet → List Packet × Tail
  | [], buffer, sofar => (sofar, .ok buffer)
  | piece :: pieces, buffer, sofar =>
    match codec.takeAll (buffer ++ piece) sofar with
    | (sofar, .ok rest) => feed pieces rest sofar
    | ended => ended

/-- The packets of a stream that comes in pieces and is then closed, and the error it ends with. -/
def items (pieces : List ByteArray) : List Packet × Option PacketError :=
  match codec.feed pieces .empty [] with
  | (packets, .error error) => (packets.reverse, some error)
  | (packets, .ok rest) =>
    (packets.reverse, if rest.size = 0 then none else some .cutOff)

end Codec

end TypedPacket
