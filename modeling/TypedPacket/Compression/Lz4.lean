import TypedPacket.Compression.Basic
import TypedPacket.Compression.Repeats

/-!
# LZ4

An LZ4 block is a list of stretches. Each starts with a token: four bits for the number of literals
and four for the number of copied octets beyond the least; a full field goes on in octets of which the
first below 255 is the last. Then come the literals and the distance of the copy, in two octets. The
last stretch is literals only. In front of the block stands the size of what it expands to.
-/

set_option autoImplicit false
set_option relaxedAutoImplicit false

namespace TypedPacket.Lz4

/-! ### Expanding -/

/-- A number beyond the field that it starts with, and the index of what follows it. -/
def readMore (bytes : ByteArray) (pos sum : Nat) : Option (Nat × { next : Nat // pos < next }) :=
  if h : pos < bytes.size then
    let octet := bytes[pos]
    if octet == 255 then
      match readMore bytes (pos + 1) (sum + 255) with
      | none => none
      | some (total, next) => some (total, ⟨next.val, by have := next.property; omega⟩)
    else some (sum + octet.toNat, ⟨pos + 1, by omega⟩)
  else none
termination_by bytes.size - pos

/-- A number that starts with a field of a token. -/
def readCount (bytes : ByteArray) (field : UInt8) (pos : Nat) :
    Option (Nat × { next : Nat // pos ≤ next }) :=
  if field < 15 then some (field.toNat, ⟨pos, Nat.le_refl pos⟩)
  else
    match readMore bytes pos 15 with
    | none => none
    | some (total, next) => some (total, ⟨next.val, Nat.le_of_lt next.property⟩)

/-- What a block expands to, from the stretch at `pos` on, after what is `written`. It has to end with
literals and may not grow beyond `capacity`. -/
def expandBlock (block : ByteArray) (capacity pos : Nat) (written : ByteArray) : Option ByteArray :=
  if hpos : pos < block.size then
    let token := block[pos]
    match readCount block (token >>> 4) (pos + 1) with
    | none => none
    | some (literals, start) =>
      let next := start.val + literals
      if block.size < next ∨ capacity < written.size + literals then none
      else
        let written := written ++ block.extract start.val next
        if next = block.size then some written
        else if block.size < next + 2 then none
        else
          let distance := (octetAt block next).toNat + 256 * (octetAt block (next + 1)).toNat
          match readCount block (token &&& 15) (next + 2) with
          | none => none
          | some (field, rest) =>
            let length := Stretch.minimum + field
            if distance = 0 ∨ written.size < distance ∨ capacity < written.size + length then none
            else expandBlock block capacity rest.val (copyBack distance length written)
  else none
termination_by block.size - pos
decreasing_by
  have := start.property
  have := rest.property
  omega

/-- What octets expand to: they say its size, which it may fall short of. -/
def expand (bytes : ByteArray) : Chunks :=
  match Compressors.claimedSize? bytes with
  | none => .broken
  | some size =>
    match expandBlock (bytes.extract 4 bytes.size) size 0 .empty with
    | none => .broken
    | some whole => .more whole fun _ => .done

/-! ### Compressing -/

/-- Copies end so many octets before the end of a block, or earlier. -/
def margin : Nat := 5

/-- Copies start so many octets before the end of a block, or earlier. -/
def lead : Nat := 12

/-- The field of a token for a number. -/
def field (count : Nat) : UInt8 := UInt8.ofNat (min count 15)

/-- Writes what is left of a number. -/
def writeMore (count : Nat) (written : ByteArray) : ByteArray :=
  if count < 255 then written.push (UInt8.ofNat count)
  else writeMore (count - 255) (written.push 255)
termination_by count

/-- Writes what the field of a number leaves out. -/
def writeCount (count : Nat) (written : ByteArray) : ByteArray :=
  if count < 15 then written else writeMore (count - 15) written

/-- Writes the stretches of octets from `pos` on. -/
def writeStretches (bytes : ByteArray) : List Stretch → Nat → ByteArray → ByteArray
  | [], pos, written =>
    let literals := bytes.size - pos
    writeCount literals (written.push (field literals <<< 4)) ++ bytes.extract pos bytes.size
  | stretch :: rest, pos, written =>
    let copied := stretch.length - Stretch.minimum
    let token := field stretch.literals <<< 4 ||| field copied
    let next := pos + stretch.literals
    let literal := writeCount stretch.literals (written.push token) ++ bytes.extract pos next
    let placed := (literal.push (UInt8.ofNat stretch.distance)).push
      (UInt8.ofNat (stretch.distance / 256))
    writeStretches bytes rest (next + stretch.length) (writeCount copied placed)

/-- Compresses octets. -/
def compress (bytes : ByteArray) : ByteArray :=
  writeStretches bytes (stretches bytes 0 bytes.size margin lead).toList 0
    (littleEndian 4 bytes.size).toByteArray

def compressor : Compressor := ⟨fun bytes => some (compress bytes), expand⟩

end TypedPacket.Lz4
