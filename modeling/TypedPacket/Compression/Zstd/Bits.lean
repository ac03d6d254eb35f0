import TypedPacket.Octets

/-!
# Bits from the end

Entropy-coded octets are read from their end: the highest set bit of the last octet marks where the
bits start, and they are read from the most significant one on. `Bits.write` lays out values so that
they are read in the order in which they are given.
-/

set_option autoImplicit false
set_option relaxedAutoImplicit false

namespace TypedPacket.Zstd

/-- Octets of which the lowest `left` bits are unread. -/
structure Bits where
  bytes : ByteArray
  left : Nat
  deriving DecidableEq

/-- `count` bits from bit `pos` on, least significant first; bits beyond the end are 0. No more than
57 bits are read at once. -/
@[inline] def bitsAt (bytes : ByteArray) (pos count : Nat) : Nat :=
  ((word64At bytes (pos / 8) >>> (pos % 8).toUInt64) &&&
    (((1 : UInt64) <<< count.toUInt64) - 1)).toNat

namespace Bits

/-- All the bits of octets. The last octet may not be 0. -/
def ofBytes? (bytes : ByteArray) : Option Bits :=
  let last := octetAt bytes (bytes.size - 1)
  if last == 0 then none else some ⟨bytes, 8 * (bytes.size - 1) + last.toNat.log2⟩

/-- The next `count` bits; those that are missing at the end are 0. -/
@[inline] def peek (bits : Bits) (count : Nat) : Nat :=
  if count ≤ bits.left then bitsAt bits.bytes (bits.left - count) count
  else bitsAt bits.bytes 0 bits.left <<< (count - bits.left)

/-- Reads `count` bits. -/
@[inline] def read? (bits : Bits) (count : Nat) : Option (Nat × Bits) :=
  if count ≤ bits.left then
    some (bitsAt bits.bytes (bits.left - count) count, ⟨bits.bytes, bits.left - count⟩)
  else none

/-- Writes values, each with its number of bits, behind the `filled` low bits of `word`. -/
def writeFrom (word : UInt64) (filled : Nat) (written : ByteArray) : List (Nat × Nat) → ByteArray
  | [] => flush 8 (word ||| (1 : UInt64) <<< filled.toUInt64) (filled + 1) written
  | (value, count) :: rest =>
    let word := word ||| value.toUInt64 <<< filled.toUInt64
    let filled := filled + count
    let whole := filled / 8
    writeFrom (word >>> (8 * whole).toUInt64) (filled - 8 * whole) (push whole word written) rest
where
  /-- Writes the `count` low octets of a word. -/
  push : Nat → UInt64 → ByteArray → ByteArray
    | 0, _, written => written
    | count + 1, word, written => push count (word >>> 8) (written.push word.toUInt8)
  /-- Writes the octets that hold the `filled` low bits of a word. -/
  flush : Nat → UInt64 → Nat → ByteArray → ByteArray
    | 0, _, _, written => written
    | room + 1, word, filled, written =>
      if filled = 0 then written else flush room (word >>> 8) (filled - 8) (written.push word.toUInt8)

/-- The octets from which the values are read in the given order. -/
def write (values : List (Nat × Nat)) : ByteArray := writeFrom 0 0 .empty values.reverse

end Bits

end TypedPacket.Zstd
