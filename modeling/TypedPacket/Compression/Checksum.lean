import TypedPacket.Octets

/-!
# Checksums

The 64-bit checksum of a Zstandard frame (XXH64 with seed 0). Four lanes take in 32 octets at a time;
they are merged, and what is left over is mixed in by eight octets, by four and one by one.
-/

set_option autoImplicit false
set_option relaxedAutoImplicit false

namespace TypedPacket.Checksum

def prime1 : UInt64 := 0x9E3779B185EBCA87
def prime2 : UInt64 := 0xC2B2AE3D27D4EB4F
def prime3 : UInt64 := 0x165667B19E3779F9
def prime4 : UInt64 := 0x85EBCA77C2B2AE63
def prime5 : UInt64 := 0x27D4EB2F165667C5

/-- The word with its bits moved up and around. -/
@[inline] def rotate (word bits : UInt64) : UInt64 := word <<< bits ||| word >>> (64 - bits)

/-- A lane takes in a word. -/
@[inline] def round (lane word : UInt64) : UInt64 := rotate (lane + word * prime2) 31 * prime1

/-- A lane is merged into the checksum. -/
@[inline] def merge (sum lane : UInt64) : UInt64 := (sum ^^^ round 0 lane) * prime1 + prime4

/-- The lanes take in the octets from `pos` on, as long as there are 32 of them; the checksum so far,
with the index of what is left over. -/
def lanes (bytes : ByteArray) (pos : Nat) (a b c d : UInt64) : UInt64 × Nat :=
  if pos + 32 ≤ bytes.size then
    lanes bytes (pos + 32) (round a (word64At bytes pos)) (round b (word64At bytes (pos + 8)))
      (round c (word64At bytes (pos + 16))) (round d (word64At bytes (pos + 24)))
  else
    let sum := rotate a 1 + rotate b 7 + rotate c 12 + rotate d 18
    (merge (merge (merge (merge sum a) b) c) d, pos)
termination_by bytes.size - pos

/-- Mixes in what is left over from `pos` on. -/
def leftOver (bytes : ByteArray) (pos : Nat) (sum : UInt64) : UInt64 :=
  if pos + 8 ≤ bytes.size then
    leftOver bytes (pos + 8)
      (rotate (sum ^^^ round 0 (word64At bytes pos)) 27 * prime1 + prime4)
  else if pos + 4 ≤ bytes.size then
    leftOver bytes (pos + 4)
      (rotate (sum ^^^ (word32At bytes pos).toUInt64 * prime1) 23 * prime2 + prime3)
  else if pos < bytes.size then
    leftOver bytes (pos + 1) (rotate (sum ^^^ (octetAt bytes pos).toUInt64 * prime5) 11 * prime1)
  else sum
termination_by bytes.size - pos

/-- Spreads every bit over the whole word. -/
def avalanche (sum : UInt64) : UInt64 :=
  let sum := (sum ^^^ sum >>> 33) * prime2
  let sum := (sum ^^^ sum >>> 29) * prime3
  sum ^^^ sum >>> 32

/-- The checksum of octets. -/
def ofBytes (bytes : ByteArray) : UInt64 :=
  let (sum, pos) :=
    if bytes.size < 32 then (prime5, 0)
    else lanes bytes 0 (prime1 + prime2) prime2 0 (0 - prime1)
  avalanche (leftOver bytes pos (sum + bytes.size.toUInt64))

end TypedPacket.Checksum
