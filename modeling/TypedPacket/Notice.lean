import TypedPacket.Error

/-!
# Notices

What operations report besides their results: the happenings that are counted and logged. An
operation gives the list of its notices, in order.
-/

set_option autoImplicit false
set_option relaxedAutoImplicit false

namespace TypedPacket

/-- Something that happened. -/
inductive Notice
  /-- A packet was built, with so many octets of payload. -/
  | built (kind : PayloadKind) (size : Nat)
  /-- A value of a foreign type was refused. -/
  | foreignType (error : PacketError)
  /-- A serializer rejected a payload. -/
  | rejected (kind : PayloadKind) (status : Status)
  /-- A serializer gave another kind than it was asked for. -/
  | kindChanged
  /-- A packet went on the wire; `attempted` when compression was asked for. -/
  | encoded (attempted compressed : Bool)
  /-- A packet came from the wire. -/
  | decoded (kind : PayloadKind) (size : Nat)
  /-- A frame was refused, with so many octets left in the buffer. -/
  | undecodable (error : PacketError) (buffered : Nat)
  deriving DecidableEq, Repr

end TypedPacket
