import TypedPacket.Config.Fault
import TypedPacket.Encoding.Fault
import TypedPacket.Payload
import TypedPacket.Status

/-!
# Errors

Why an operation on packets fails, with the text of each cause. Two families matter to callers of a
factory: a value of a type that no packet can carry (`isTypeError`), and a status, which comes from a
serializer and is passed on as it is (`status?`).
-/

set_option autoImplicit false
set_option relaxedAutoImplicit false

namespace TypedPacket

/-! ### Fixed texts -/

namespace PacketError

def invalidHeaderText : String := "Invalid packet header"
def oversizedText : String := "Packet exceeds maximum size"
def headerTooLargeText : String := "Packet header exceeds maximum size"
def payloadTooLargeText : String := "Serialized payload exceeds maximum size"
def untypedStructText : String :=
  "Bincode cannot encode self-describing struct payloads; use json or msgpack"
def compressionText : String := "Compression failed"
def decompressionText : String := "Decompression failed"
def clockText : String := "System time error: time went backwards"

end PacketError

/-! ### Causes -/

/-- Why a value cannot be written. -/
inductive WriteFault
  /-- The header would take so many octets. -/
  | headerTooLarge (size : Nat)
  | stated (words : String)
  deriving DecidableEq, Repr

def WriteFault.message : WriteFault → String
  | .headerTooLarge size =>
    PacketError.headerTooLargeText ++ ": " ++ toString size ++ " bytes"
  | .stated words => words

inductive PacketError
  | transport (reason : String)
  | layout (reason : String)
  | unwritable (fault : WriteFault)
  | unreadable (fault : ReadFault)
  | unsupportedType (typeName : String)
  | kindMismatch (expected actual : PayloadKind)
  | status (status : Status)
  | invalidHeader
  | unsupportedVersion (version : UInt8)
  | oversized (size : Nat)
  | compressionFailure
  | decompressionFailure
  | config (fault : ConfigFault)
  | clock (reason : String)
  deriving DecidableEq, Repr

/-- A stream that ends inside a frame. -/
def PacketError.cutOff : PacketError := .transport "bytes remaining on stream"

namespace PacketError

def message : PacketError → String
  | .transport reason => "I/O error: " ++ reason
  | .layout reason => "Serialization error: " ++ reason
  | .unwritable fault => "Serialize error: " ++ fault.message
  | .unreadable fault => "Deserialize error: " ++ fault.message
  | .unsupportedType typeName => "Unsupported payload type: " ++ typeName
  | .kindMismatch expected actual =>
    "Payload type mismatch: expected " ++ expected.typeClass ++ ", found " ++ actual.typeClass
  | .status given => "Serializer status: " ++ given.line
  | .invalidHeader => invalidHeaderText
  | .unsupportedVersion version => "Unsupported packet version: " ++ toString version.toNat
  | .oversized size => oversizedText ++ ": " ++ toString size ++ " bytes"
  | .compressionFailure => compressionText
  | .decompressionFailure => decompressionText
  | .config fault => "Configuration error: " ++ fault.message
  | .clock reason => "Clock error: " ++ reason

/-- The value's type has no payload. -/
def isTypeError : PacketError → Bool
  | .unsupportedType _ => true
  | _ => false

/-- The status, if a serializer gave one. -/
def status? : PacketError → Option Status
  | .status given => some given
  | _ => none

end PacketError

end TypedPacket
