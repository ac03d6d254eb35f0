import TypedPacket.FixedWidth
import TypedPacket.Json.Stop
import TypedPacket.MessagePack.Reader

/-!
# Why octets cannot be read

The causes for which stored octets are refused, with their wording. A cause that arose elsewhere is
kept by its text (`stated`).
-/

set_option autoImplicit false
set_option relaxedAutoImplicit false

namespace TypedPacket

/-- Why octets cannot be read as a value. -/
inductive ReadFault
  /-- Not even a tag. -/
  | empty
  | unknownTag (tag : UInt8)
  | fixedWidth (fault : FixedWidth.Fault)
  | json (cause : Json.Cause) (position : Json.Position)
  | messagePack (fault : MessagePack.Fault)
  | text (fault : Utf8.Fault)
  /-- The octets of an image are not its pixels. -/
  | imageDimensions
  | stated (text : String)
  deriving DecidableEq, Repr

def imageDimensionsText : String := "Raw image data does not match its dimensions"

def ReadFault.message : ReadFault → String
  | .empty => "Empty data"
  | .unknownTag tag => "Unknown format byte: " ++ toString tag.toNat
  | .fixedWidth fault => fault.message
  | .json cause position => cause.message ++ position.message
  | .messagePack fault => fault.message
  | .text fault => fault.message
  | .imageDimensions => imageDimensionsText
  | .stated words => words

end TypedPacket
