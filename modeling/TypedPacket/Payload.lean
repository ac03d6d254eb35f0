import TypedPacket.Json.Value
import TypedPacket.Schema.Basic

/-!
# Payloads

What a packet can carry: a text, octets, a structured value or a raw image. Each has a kind, known by
its type class in metadata and in messages (`ofTypeClass?_typeClass`). A raw image is consistent when
its octets are exactly its pixels.
-/

set_option autoImplicit false
set_option relaxedAutoImplicit false

namespace TypedPacket

/-- The kinds of payloads. -/
inductive PayloadKind
  | text | binary | struct | rawImage
  deriving DecidableEq, Repr, Inhabited

namespace PayloadKind

/-- The stable name of a kind. -/
def typeClass : PayloadKind → String
  | .text => "string"
  | .binary => "bytes"
  | .struct => "struct"
  | .rawImage => "raw-image"

def all : List PayloadKind := [.text, .binary, .struct, .rawImage]

/-- The kind of a type class. -/
def ofTypeClass? (name : String) : Option PayloadKind := all.find? fun kind => kind.typeClass == name

theorem ofTypeClass?_typeClass (kind : PayloadKind) : ofTypeClass? kind.typeClass = some kind := by
  cases kind <;> decide

@[reducible] def choice : Choice := ⟨"PayloadKind", ["Text", "Binary", "Struct", "RawImage"]⟩

/-- The position of a kind among the variants of `choice`. -/
def index : PayloadKind → Fin choice.variants.length
  | .text => ⟨0, by decide⟩
  | .binary => ⟨1, by decide⟩
  | .struct => ⟨2, by decide⟩
  | .rawImage => ⟨3, by decide⟩

def ofIndex (i : Fin choice.variants.length) : PayloadKind :=
  match i.val with
  | 0 => .text
  | 1 => .binary
  | 2 => .struct
  | _ => .rawImage

@[simp] theorem ofIndex_index (kind : PayloadKind) : ofIndex kind.index = kind := by
  cases kind <;> rfl

theorem index_ofIndex (i : Fin choice.variants.length) : (ofIndex i).index = i := by
  rcases i with ⟨_ | _ | _ | _ | n, hi⟩
  · rfl
  · rfl
  · rfl
  · rfl
  · exact absurd hi (Nat.not_lt.mpr (Nat.le_add_left 4 n))

/-- The name of a kind among the variants. -/
def variantName (kind : PayloadKind) : String := choice.variants[kind.index]

end PayloadKind

/-- The layouts of a pixel. -/
inductive PixelFormat
  | gray8 | rgb24 | rgba32
  deriving DecidableEq, Repr, Inhabited

namespace PixelFormat

/-- The octets of a pixel. -/
def pixelSize : PixelFormat → Nat
  | .gray8 => 1
  | .rgb24 => 3
  | .rgba32 => 4

def name : PixelFormat → String
  | .gray8 => "gray8"
  | .rgb24 => "rgb24"
  | .rgba32 => "rgba32"

def all : List PixelFormat := [.gray8, .rgb24, .rgba32]

@[reducible] def choice : Choice := ⟨"PixelFormat", ["Gray8", "Rgb24", "Rgba32"]⟩

/-- The position of a format among the variants of `choice`. -/
def index : PixelFormat → Fin choice.variants.length
  | .gray8 => ⟨0, by decide⟩
  | .rgb24 => ⟨1, by decide⟩
  | .rgba32 => ⟨2, by decide⟩

def ofIndex (i : Fin choice.variants.length) : PixelFormat :=
  match i.val with
  | 0 => .gray8
  | 1 => .rgb24
  | _ => .rgba32

@[simp] theorem ofIndex_index (format : PixelFormat) : ofIndex format.index = format := by
  cases format <;> rfl

theorem index_ofIndex (i : Fin choice.variants.length) : (ofIndex i).index = i := by
  rcases i with ⟨_ | _ | _ | n, hi⟩
  · rfl
  · rfl
  · rfl
  · exact absurd hi (Nat.not_lt.mpr (Nat.le_add_left 3 n))

/-- The name of a format among the variants. -/
def variantName (format : PixelFormat) : String := choice.variants[format.index]

end PixelFormat

/-- An image as rows of pixels. -/
structure RawImage where
  width : UInt32
  height : UInt32
  format : PixelFormat
  data : ByteArray
  deriving DecidableEq

namespace RawImage

/-- The octets that the dimensions ask for. -/
def area (image : RawImage) : Nat :=
  image.width.toNat * image.height.toNat * image.format.pixelSize

/-- The octets that the dimensions ask for, if a word of 64 bits counts them. -/
def expectedSize? (image : RawImage) : Option Nat :=
  if image.area < 2 ^ 64 then some image.area else none

/-- The data is exactly one image. -/
def isConsistent (image : RawImage) : Bool := image.expectedSize? = some image.data.size

@[reducible] def schema : Schema :=
  ⟨"RawImage", [⟨"width", .word .w32⟩, ⟨"height", .word .w32⟩,
    ⟨"format", .choice PixelFormat.choice⟩, ⟨"data", .blob⟩]⟩

def toRow (image : RawImage) : Row schema.fields :=
  (image.width.toBitVec, image.height.toBitVec, image.format.index, image.data, ())

def ofRow : Row schema.fields → RawImage
  | (width, height, format, data, ()) => ⟨⟨width⟩, ⟨height⟩, .ofIndex format, data⟩

@[simp] theorem ofRow_toRow (image : RawImage) : ofRow image.toRow = image := by
  simp [ofRow, toRow]

theorem toRow_ofRow (row : Row schema.fields) : (ofRow row).toRow = row := by
  obtain ⟨width, height, format, data, ⟨⟩⟩ := row
  simp only [ofRow, toRow, PixelFormat.index_ofIndex]

end RawImage

/-- A value a packet can carry. -/
inductive Payload
  | text (value : String)
  | binary (value : ByteArray)
  | struct (value : Json.Value)
  | rawImage (value : RawImage)

namespace Payload

def kind : Payload → PayloadKind
  | .text _ => .text
  | .binary _ => .binary
  | .struct _ => .struct
  | .rawImage _ => .rawImage

end Payload

/-- A value of a type that is known only when it arrives: a payload, or a value that is none, by the
name of its type. -/
inductive Candidate
  | payload (value : Payload)
  | foreign (typeName : String)

end TypedPacket
