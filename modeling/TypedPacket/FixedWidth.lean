import TypedPacket.Octets
import TypedPacket.Schema.Basic
import TypedPacket.Text.Utf8

/-!
# The fixed-width layout

Records are laid out field after field with nothing between them: words at full width, least
significant octet first; texts and octet strings behind a length of eight octets; an optional text
behind an octet 0 or 1; a choice as the index of its variant in four octets; a map as its number of
entries and then keys and values. The layout does not describe itself: a reader needs the schema.

`size` gives the length of what `write` writes (`size_write`) without writing it.
-/

set_option autoImplicit false
set_option relaxedAutoImplicit false

namespace TypedPacket.FixedWidth

/-- Why octets are not in the layout of a type. -/
inductive Fault
  | endOfInput
  /-- The octets end inside a text. -/
  | shortText
  | badTag (tag : Nat)
  | badText (fault : Utf8.Fault)
  | mismatch (cause : Mismatch)
  /-- The value's type would have to be told from the octets. -/
  | untyped
  deriving DecidableEq, Repr

def dialect : Dialect := ⟨"unit value", .plain⟩

def Fault.message : Fault → String
  | .endOfInput => "io error: unexpected end of file"
  | .shortText => "io error: "
  | .badTag tag => "tag for enum is not valid, found " ++ toString tag
  | .badText fault => "string is not valid utf8: " ++ fault.message
  | .mismatch cause => cause.message dialect
  | .untyped => "Bincode does not support the serde::Deserializer::deserialize_any method"

/-- A reader takes what it needs from the front and leaves the rest. -/
abbrev Reader (α : Type) := ByteArray → Except Fault (α × ByteArray)

/-! ### Writing -/

/-- A number in eight octets. -/
def length (n : Nat) : ByteArray := (littleEndian 8 n).toByteArray

def writeText (text : String) : ByteArray := length text.toUTF8.size ++ text.toUTF8

def writeEntries (entries : List (String × String)) : ByteArray :=
  entries.foldl (fun written entry => written ++ writeText entry.1 ++ writeText entry.2) .empty

def write : (type : FieldType) → type.Val → ByteArray
  | .word width, value => (littleEndian width.size value.toNat).toByteArray
  | .text, text => writeText text
  | .optionalText, none => [0].toByteArray
  | .optionalText, some text => [1].toByteArray ++ writeText text
  | .blob, bytes => length bytes.size ++ bytes
  | .choice _, index => (littleEndian 4 index.val).toByteArray
  | .textMap, map => length map.entries.length ++ writeEntries map.entries

def writeRow : {fields : List Field} → Row fields → ByteArray
  | [], _ => .empty
  | field :: _, (value, rest) => write field.type value ++ writeRow rest

/-! ### Sizes -/

def textSize (text : String) : Nat := 8 + text.toUTF8.size

def entriesSize : List (String × String) → Nat
  | [] => 0
  | (key, text) :: entries => textSize key + textSize text + entriesSize entries

def size : (type : FieldType) → type.Val → Nat
  | .word width, _ => width.size
  | .text, text => textSize text
  | .optionalText, none => 1
  | .optionalText, some text => 1 + textSize text
  | .blob, bytes => 8 + bytes.size
  | .choice _, _ => 4
  | .textMap, map => 8 + entriesSize map.entries

def rowSize : {fields : List Field} → Row fields → Nat
  | [], _ => 0
  | field :: _, (value, rest) => size field.type value + rowSize rest

theorem size_length (n : Nat) : (length n).size = 8 := by
  simp [length, List.size_toByteArray]

theorem size_writeText (text : String) : (writeText text).size = textSize text := by
  simp [writeText, textSize, size_length]

theorem size_foldl_entries (entries : List (String × String)) (before : ByteArray) :
    (entries.foldl (fun written entry => written ++ writeText entry.1 ++ writeText entry.2)
      before).size = before.size + entriesSize entries := by
  induction entries generalizing before with
  | nil => simp [entriesSize]
  | cons entry rest ih =>
    rw [List.foldl_cons, ih]
    simp only [ByteArray.size_append, size_writeText, entriesSize]
    omega

theorem size_writeEntries (entries : List (String × String)) :
    (writeEntries entries).size = entriesSize entries := by
  simp [writeEntries, size_foldl_entries]

theorem size_write : (type : FieldType) → (value : type.Val) →
    (write type value).size = size type value
  | .word _, _ => by simp [write, size, List.size_toByteArray]
  | .text, text => size_writeText text
  | .optionalText, none => rfl
  | .optionalText, some text => by
    simp [write, size, size_writeText, List.size_toByteArray]
  | .blob, bytes => by simp [write, size, size_length]
  | .choice _, _ => by simp [write, size, List.size_toByteArray]
  | .textMap, map => by simp [write, size, size_length, size_writeEntries]

theorem size_writeRow : {fields : List Field} → (row : Row fields) →
    (writeRow row).size = rowSize row
  | [], _ => rfl
  | _ :: _, (value, rest) => by
    simp [writeRow, rowSize, size_write, size_writeRow rest]

/-! ### Reading -/

/-- The first `n` octets and the rest. -/
def split? (n : Nat) (bytes : ByteArray) : Option (ByteArray × ByteArray) :=
  if n ≤ bytes.size then some (bytes.extract 0 n, bytes.extract n bytes.size) else none

/-- A number in `n` octets. -/
def number (n : Nat) : Reader Nat := fun bytes =>
  match split? n bytes with
  | none => .error .endOfInput
  | some (front, rest) => .ok (ofLittleEndian (octets front), rest)

def readText : Reader String := fun bytes => do
  let (n, rest) ← number 8 bytes
  match split? n rest with
  | none => .error .shortText
  | some (front, rest) =>
    match Utf8.decode front with
    | .ok text => .ok (text, rest)
    | .error fault => .error (.badText fault)

/-- Reads so many entries into a map; a later entry replaces an earlier one of its key. -/
def readEntries : Nat → TextMap → Reader TextMap
  | 0, map, bytes => .ok (map, bytes)
  | count + 1, map, bytes => do
    let (key, rest) ← readText bytes
    let (value, rest) ← readText rest
    readEntries count (map.insert key value) rest

/-- What is expected of the index of a variant. -/
def indexExpectation (among : Choice) : String :=
  "variant index 0 <= i < " ++ toString among.variants.length

def read : (type : FieldType) → Reader type.Val
  | .word width, bytes => do
    let (n, rest) ← number width.size bytes
    .ok (BitVec.ofNat _ n, rest)
  | .text, bytes => readText bytes
  | .optionalText, bytes => do
    let (tag, rest) ← number 1 bytes
    match tag with
    | 0 => .ok (none, rest)
    | 1 =>
      let (text, rest) ← readText rest
      .ok (some text, rest)
    | tag => .error (.badTag tag)
  | .blob, bytes => do
    let (n, rest) ← number 8 bytes
    match split? n rest with
    | none => .error .endOfInput
    | some (front, rest) => .ok (front, rest)
  | .choice among, bytes => do
    let (index, rest) ← number 4 bytes
    if h : index < among.variants.length then .ok (⟨index, h⟩, rest)
    else .error (.mismatch (.wrongValue (.integer index) (indexExpectation among)))
  | .textMap, bytes => do
    let (count, rest) ← number 8 bytes
    readEntries count .empty rest

def readRow : (fields : List Field) → Reader (Row fields)
  | [], bytes => .ok ((), bytes)
  | field :: fields, bytes => do
    let (value, rest) ← read field.type bytes
    let (row, rest) ← readRow fields rest
    .ok ((value, row), rest)

end TypedPacket.FixedWidth
