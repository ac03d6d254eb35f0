import TypedPacket.Compression.Repeats
import TypedPacket.Compression.Zstd.Fse

/-!
# Sequences of a block

A sequence is a number of literals, a distance and a length to copy. Each of the three numbers is a
code with some bits beyond it, and each kind of code has a finite-state table of its own: a fixed one,
one for a single code, one that is given, or the one from before. Small distance codes stand for the
distances used last (`Recent`).
-/

set_option autoImplicit false
set_option relaxedAutoImplicit false

namespace TypedPacket.Zstd

/-! ### Codes -/

/-- The numbers of a code: those from `base` on that `bits` bits tell apart. -/
structure Span where
  base : Nat
  bits : Nat
  deriving DecidableEq, Repr, Inhabited

namespace Span

/-- Codes one after another, from their numbers of bits. -/
def consecutive (base : Nat) : List Nat → List Span
  | [] => []
  | bits :: rest => ⟨base, bits⟩ :: consecutive (base + 2 ^ bits) rest

/-- The code of a number, and what it leaves out. -/
def codeOf (spans : Array Span) (number : Nat) : Nat × Nat :=
  let code := (spans.findIdx? fun span => number < span.base + 2 ^ span.bits).getD 0
  (code, number - (spans.getD code default).base)

end Span

/-- The numbers of literals. -/
def literalSpans : Array Span :=
  (Span.consecutive 0 (List.replicate 16 0 ++ [1, 1, 1, 1, 2, 2, 3, 3, 4, 6, 7, 8, 9, 10, 11, 12,
    13, 14, 15, 16])).toArray

/-- The numbers of copied octets. -/
def lengthSpans : Array Span :=
  (Span.consecutive 3 (List.replicate 32 0 ++ [1, 1, 1, 1, 2, 2, 3, 3, 4, 4, 5, 7, 8, 9, 10, 11,
    12, 13, 14, 15, 16])).toArray

/-- The greatest distance code. -/
def lastDistance : Nat := 31

/-- A kind of code: its fixed table, its greatest code and the most bits that choose a state. -/
structure CodeKind where
  fixed : Fse.Table
  last : Nat
  maxLog : Nat

/-- The counts of a fixed table. -/
def fixedCounts (counts : List Int) : Array Fse.Count :=
  (counts.map fun count => if count < 0 then Fse.Count.rare else .times count.toNat).toArray

def literalKind : CodeKind :=
  ⟨.ofCounts 6 (fixedCounts [4, 3, 2, 2, 2, 2, 2, 2, 2, 2, 2, 2, 2, 1, 1, 1, 2, 2, 2, 2, 2, 2, 2, 2,
    2, 3, 2, 1, 1, 1, 1, 1, -1, -1, -1, -1]), 35, 9⟩

def distanceKind : CodeKind :=
  ⟨.ofCounts 5 (fixedCounts [1, 1, 1, 1, 1, 1, 2, 2, 2, 1, 1, 1, 1, 1, 1, 1, 1, 1, 1, 1, 1, 1, 1, 1,
    -1, -1, -1, -1, -1]), lastDistance, 8⟩

def lengthKind : CodeKind :=
  ⟨.ofCounts 6 (fixedCounts [1, 4, 3, 2, 2, 2, 2, 2, 2, 1, 1, 1, 1, 1, 1, 1, 1, 1, 1, 1, 1, 1, 1, 1,
    1, 1, 1, 1, 1, 1, 1, 1, 1, 1, 1, 1, 1, 1, 1, 1, 1, 1, 1, 1, 1, 1, -1, -1, -1, -1, -1, -1, -1]),
    52, 9⟩

/-- The tables in use for the three kinds of codes. -/
structure Codes where
  literals : Fse.Table
  distances : Fse.Table
  lengths : Fse.Table

/-- Reads the table for one kind of code in one of four ways: the table, and the octets it takes. -/
def CodeKind.readTable (kind : CodeKind) (way : Nat) (before : Option Fse.Table)
    (bytes : ByteArray) : Option (Fse.Table × Nat) :=
  match way with
  | 0 => some (kind.fixed, 0)
  | 1 =>
    let code := (octetAt bytes 0).toNat
    if bytes.size = 0 ∨ kind.last < code then none else some (.single code, 1)
  | 2 => Fse.readTable bytes kind.last kind.maxLog
  | _ => before.map (·, 0)

/-! ### Distances used last -/

/-- The three distances used last, the latest first. -/
structure Recent where
  first : Nat
  second : Nat
  third : Nat
  deriving DecidableEq, Repr

namespace Recent

/-- The distances that a frame starts with. -/
def initial : Recent := ⟨1, 4, 8⟩

/-- The distance for a number, and the distances used last after it. The numbers up to 3 stand for
recent distances; without literals before the copy they are counted from the second on, and the third
of them stands for one less than the latest. -/
def use (recent : Recent) (number : Nat) (noLiterals : Bool) : Nat × Recent :=
  if 3 < number then (number - 3, ⟨number - 3, recent.first, recent.second⟩)
  else
    match number + if noLiterals then 1 else 0 with
    | 1 => (recent.first, recent)
    | 2 => (recent.second, ⟨recent.second, recent.first, recent.third⟩)
    | 3 => (recent.third, ⟨recent.third, recent.first, recent.second⟩)
    | _ => (recent.first - 1, ⟨recent.first - 1, recent.first, recent.second⟩)

end Recent

/-! ### Sequences -/

/-- Reads the number that goes with a code. -/
@[inline] def Span.read? (span : Span) (bits : Bits) : Option (Nat × Bits) :=
  match bits.read? span.bits with
  | none => none
  | some (more, bits) => some (span.base + more, bits)

/-- Carries out `count` sequences, whose codes are those of the states, on what is `written`, with the
literals from `pos` on. What is written may not grow beyond `stop`, and the bits are used up
exactly. -/
def carryOut (codes : Codes) (literals : ByteArray) (stop : Nat) :
    (count : Nat) → (literal distance length : Fse.State) → Bits → Recent → (pos : Nat) →
    ByteArray → Option (ByteArray × Recent × Nat)
  | 0, _, _, _, bits, recent, pos, written =>
    if bits.left = 0 then some (written, recent, pos) else none
  | count + 1, literal, distance, length, bits, recent, pos, written => do
    let (number, bits) ← Span.read? ⟨2 ^ distance.symbol, distance.symbol⟩ bits
    let (size, bits) ← (lengthSpans.getD length.symbol default).read? bits
    let (plain, bits) ← (literalSpans.getD literal.symbol default).read? bits
    let (back, recent) := recent.use number (plain = 0)
    if literals.size < pos + plain ∨ stop < written.size + plain + size ∨ back = 0 ∨
        written.size + plain < back then none
    else
      let next := pos + plain
      let written := copyBack back size (written ++ literals.extract pos next)
      if count = 0 then carryOut codes literals stop 0 literal distance length bits recent next written
      else
        let (literal, bits) ← codes.literals.next? literal bits
        let (length, bits) ← codes.lengths.next? length bits
        let (distance, bits) ← codes.distances.next? distance bits
        carryOut codes literals stop count literal distance length bits recent next written

/-- The number of sequences, and the octets that it takes. -/
def readNumber (bytes : ByteArray) : Option (Nat × Nat) :=
  let first := (octetAt bytes 0).toNat
  let (number, size) :=
    if first < 128 then (first, 1)
    else if first < 255 then ((first - 128) * 256 + (octetAt bytes 1).toNat, 2)
    else ((octetAt bytes 1).toNat + 256 * (octetAt bytes 2).toNat + 0x7F00, 3)
  if bytes.size < size then none else some (number, size)

/-- Reads the tables in use for the three kinds of codes, and the index of what follows them. -/
def readCodes (bytes : ByteArray) (pos : Nat) (before : Option Codes) : Option (Codes × Nat) := do
  let ways := (octetAt bytes pos).toNat
  if bytes.size ≤ pos ∨ ways % 4 ≠ 0 then none
  else
    let pos := pos + 1
    let rest := bytes.extract pos bytes.size
    let (literals, size) ← literalKind.readTable (ways / 64) (before.map Codes.literals) rest
    let pos := pos + size
    let rest := bytes.extract pos bytes.size
    let (distances, size) ← distanceKind.readTable (ways / 16 % 4) (before.map Codes.distances) rest
    let pos := pos + size
    let rest := bytes.extract pos bytes.size
    let (lengths, size) ← lengthKind.readTable (ways / 4 % 4) (before.map Codes.lengths) rest
    some (⟨literals, distances, lengths⟩, pos + size)

end TypedPacket.Zstd
