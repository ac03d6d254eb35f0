import TypedPacket.Compression.Zstd.Literals
import TypedPacket.Compression.Zstd.Sequences

/-!
# Compressed blocks

A compressed block is its literals, the sequences that use them, and the codes of both, which a later
block of the same frame may use again. Literals that no sequence uses are the end of the block.
-/

set_option autoImplicit false
set_option relaxedAutoImplicit false

namespace TypedPacket.Zstd

/-- What a block leaves to the next one of its frame. -/
structure Memory where
  literals : Option Huffman.Table
  codes : Option Codes
  recent : Recent

namespace Memory

/-- What the first block of a frame finds. -/
def initial : Memory := ⟨none, none, .initial⟩

end Memory

namespace Block

/-- The fewest octets of a compressed block. -/
def leastSize : Nat := 2

/-- Carries out the sequences in the `tail` of a block. -/
def carryOut (tail literals : ByteArray) (stop : Nat) (memory : Memory)
    (written : ByteArray) : Option (ByteArray × Memory × Nat) := do
  let (count, pos) ← readNumber tail
  if count = 0 then
    if pos = tail.size then some (written, memory, 0) else none
  else
    let (codes, pos) ← readCodes tail pos memory.codes
    let bits ← Bits.ofBytes? (tail.extract pos tail.size)
    let (literal, bits) ← codes.literals.start? bits
    let (distance, bits) ← codes.distances.start? bits
    let (length, bits) ← codes.lengths.start? bits
    let (written, recent, used) ←
      Zstd.carryOut codes literals stop count literal distance length bits memory.recent 0 written
    some (written, ⟨memory.literals, some codes, recent⟩, used)

/-- Expands a compressed block to no more than `limit` octets after what is `written`. -/
def expand (block : ByteArray) (limit : Nat) (memory : Memory) (written : ByteArray) :
    Option (ByteArray × Memory) := do
  if block.size < leastSize then none
  else
    let stop := written.size + limit
    let literals ← Literals.read block limit memory.literals
    let tail := block.extract literals.size block.size
    let memory := { memory with literals := literals.code }
    let (written, memory, used) ← carryOut tail literals.octets stop memory written
    let written := written ++ literals.octets.extract used literals.octets.size
    if stop < written.size then none else some (written, memory)

end Block

end TypedPacket.Zstd
