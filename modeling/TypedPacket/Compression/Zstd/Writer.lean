import TypedPacket.Compression.Zstd.Frame

/-!
# Writing Zstandard

Octets are compressed as one frame of blocks that stand each for itself: a run of one octet, a
compressed block with plain literals and the fixed tables, or the octets as they are, whichever is
the smallest.
-/

set_option autoImplicit false
set_option relaxedAutoImplicit false

namespace TypedPacket.Zstd

/-! ### Sequences -/

/-- A sequence as codes, each with what it leaves out and in how many bits. -/
structure CodedSequence where
  literal : Nat × Nat
  distance : Nat × Nat
  length : Nat × Nat

namespace CodedSequence

/-- The codes of a stretch; recent distances are not used. -/
def ofStretch (stretch : Stretch) : CodedSequence :=
  let number := stretch.distance + 3
  ⟨Span.codeOf literalSpans stretch.literals, (number.log2, number - 2 ^ number.log2),
    Span.codeOf lengthSpans stretch.length⟩

/-- What goes with the codes, in the order of reading. -/
def extra (sequence : CodedSequence) : List (Nat × Nat) :=
  [(sequence.distance.2, sequence.distance.1),
    (sequence.length.2, (lengthSpans.getD sequence.length.1 default).bits),
    (sequence.literal.2, (literalSpans.getD sequence.literal.1 default).bits)]

end CodedSequence

/-- The index of the state of a symbol that can be followed by state `next`. -/
def Fse.Table.stateBefore (table : Fse.Table) (symbol next : Nat) : Nat :=
  (table.states.findIdx? fun state =>
    state.symbol = symbol ∧ state.base ≤ next ∧ next < state.base + 2 ^ state.bits).getD 0

/-- The states in which the symbols are read one after another, and the bits from each to the next. -/
def Fse.Table.path (table : Fse.Table) : List Nat → List (Nat × Nat × Nat)
  | [] => []
  | [symbol] => [((table.states.findIdx? (·.symbol = symbol)).getD 0, 0, 0)]
  | symbol :: rest =>
    let later := table.path rest
    let next := (later.headD (0, 0, 0)).1
    let index := table.stateBefore symbol next
    let state := table.states.getD index default
    (index, next - state.base, state.bits) :: later

/-- The fields of sequences, each with its number of bits, in the order of reading. The first states
are followed by what goes with the first sequence; then come the bits to the next states, and so on. -/
def sequenceFields (sequences : List CodedSequence) : List (Nat × Nat) :=
  let literals := literalKind.fixed.path (sequences.map (·.literal.1))
  let distances := distanceKind.fixed.path (sequences.map (·.distance.1))
  let lengths := lengthKind.fixed.path (sequences.map (·.length.1))
  let starts := [((literals.headD (0, 0, 0)).1, literalKind.fixed.log),
    ((distances.headD (0, 0, 0)).1, distanceKind.fixed.log),
    ((lengths.headD (0, 0, 0)).1, lengthKind.fixed.log)]
  let steps := (literals.zip (lengths.zip distances)).map fun (literal, length, distance) =>
    [literal.2, length.2, distance.2]
  starts ++ (sequences.zip steps).flatMap fun (sequence, step) => sequence.extra ++ step

/-! ### Blocks -/

namespace Block

/-- A number in `width` octets. -/
def number (width n : Nat) : ByteArray := (littleEndian width n).toByteArray

/-- The literals as they are, behind their number. -/
def plainLiterals (literals : ByteArray) : ByteArray :=
  let count := literals.size
  let head :=
    if count < 32 then number 1 (8 * count)
    else if count < 4096 then number 2 (16 * count + 4)
    else number 3 (16 * count + 12)
  head ++ literals

/-- The number of sequences. -/
def sequenceCount (count : Nat) : ByteArray :=
  if count < 128 then number 1 count
  else if count < 0x7F00 then number 1 (128 + count / 256) ++ number 1 count
  else number 1 255 ++ number 2 (count - 0x7F00)

/-- The literals of stretches from `pos` to `stop`. -/
def gather (bytes : ByteArray) (stop : Nat) : List Stretch → Nat → ByteArray → ByteArray
  | [], pos, literals => literals ++ bytes.extract pos stop
  | stretch :: rest, pos, literals =>
    let next := pos + stretch.literals
    gather bytes stop rest (next + stretch.length) (literals ++ bytes.extract pos next)

/-- The compressed form of the octets from `first` to `stop`. -/
def compress (bytes : ByteArray) (first stop : Nat) : ByteArray :=
  let found := (stretches bytes first stop 0 Stretch.minimum).toList
  let head := plainLiterals (gather bytes stop found first .empty) ++ sequenceCount found.length
  if found.isEmpty then head
  else
    head ++ number 1 0 ++ Bits.write (sequenceFields (found.map CodedSequence.ofStretch))

/-- A block: its kind and size, whether it is the last one, and its body. -/
def write (isLast : Bool) (kind size : Nat) (body : ByteArray) : ByteArray :=
  number 3 ((if isLast then 1 else 0) + 2 * kind + 8 * size) ++ body

/-- The octets from `first` to `stop` are all the same. -/
def isRun (bytes : ByteArray) (first stop : Nat) : Bool :=
  first < stop && Stretch.common bytes stop first (first + 1) 1 = stop - first

/-- The smallest block for the octets from `first` to `stop`. -/
def encode (bytes : ByteArray) (isLast : Bool) (first stop : Nat) : ByteArray :=
  let size := stop - first
  if isRun bytes first stop then write isLast 1 size (bytes.extract first (first + 1))
  else
    let small := compress bytes first stop
    if small.size < size then write isLast 2 small.size small
    else write isLast 0 size (bytes.extract first stop)

end Block

/-! ### Frames -/

/-- The octets in front of the first block: the magic, no optional field, and a window of 128 KiB. -/
def frameStart : ByteArray := [0x28, 0xB5, 0x2F, 0xFD, 0x00, 0x38].toByteArray

/-- The octets of a block. -/
def blockSize : Nat := 128 * 1024

/-- Writes the octets from `first` on as blocks. -/
def writeBlocks (bytes : ByteArray) (first : Nat) (written : ByteArray) : ByteArray :=
  if first + blockSize < bytes.size then
    writeBlocks bytes (first + blockSize)
      (written ++ Block.encode bytes false first (first + blockSize))
  else written ++ Block.encode bytes true first bytes.size
termination_by bytes.size - first
decreasing_by
  simp only [blockSize] at *
  omega

/-- Compresses octets. -/
def compress (bytes : ByteArray) : ByteArray := writeBlocks bytes 0 frameStart

def compressor : Compressor := ⟨fun bytes => some (compress bytes), expand⟩

end TypedPacket.Zstd
