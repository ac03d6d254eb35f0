import TypedPacket.Compression.Zstd.Bits

/-!
# Finite-state entropy tables

A finite-state entropy code keeps a state. Each state stands for a symbol, and the next state is found
by reading some bits and adding them to a base. A table is built from how often its symbols occur
(`Table.ofCounts`); these counts are read from a compact form (`readFrom`).
-/

set_option autoImplicit false
set_option relaxedAutoImplicit false

namespace TypedPacket.Zstd.Fse

/-- A state: its symbol, and the next states: those from `base` on that `bits` bits tell apart. -/
structure State where
  symbol : Nat
  bits : Nat
  base : Nat
  deriving DecidableEq, Repr, Inhabited

/-- The states of a code, `2 ^ log` of them. -/
structure Table where
  log : Nat
  states : Array State
  deriving DecidableEq, Repr, Inhabited

/-- How often a symbol occurs among the states. -/
inductive Count
  | times (count : Nat)
  /-- Less than once: it has one state, which tells nothing about the next. -/
  | rare
  deriving DecidableEq, Repr, Inhabited

namespace Count

/-- The states of a symbol. -/
def size : Count → Nat
  | times count => count
  | rare => 1

end Count

namespace Table

/-- The table of a code with one symbol. -/
def single (symbol : Nat) : Table := ⟨0, #[⟨symbol, 0, 0⟩]⟩

/-- The symbols of the states in the order of the states. Rare symbols take the last states; the
others are spread over the rest in steps that reach every state once. -/
def spread (log : Nat) (counts : Array Count) : Array Nat :=
  let size := 2 ^ log
  let indexed := counts.toList.zipIdx
  let rare := indexed.filterMap fun (count, symbol) => if count = .rare then some symbol else none
  let common := indexed.flatMap fun (count, symbol) =>
    match count with
    | .rare => []
    | .times count => List.replicate count symbol
  let step := size / 2 + size / 8 + 3
  let places := ((List.range size).map fun i => i * step % size).filter (· < size - rare.length)
  let cells := rare.zipIdx.foldl
    (fun cells (symbol, i) => cells.setIfInBounds (size - 1 - i) symbol) (Array.replicate size 0)
  (places.zip common).foldl (fun cells (place, symbol) => cells.setIfInBounds place symbol) cells

/-- The table of a code in which the symbols occur as often as counted. The states of a symbol share
the next states among them as evenly as powers of two allow. -/
def ofCounts (log : Nat) (counts : Array Count) : Table :=
  let size := 2 ^ log
  let step := fun (states, next) symbol =>
    let position : Nat := (next : Array Nat).getD symbol 0
    let bits := log - position.log2
    ((states : Array State).push ⟨symbol, bits, position * 2 ^ bits - size⟩,
      next.setIfInBounds symbol (position + 1))
  ⟨log, ((spread log counts).foldl step (#[], counts.map Count.size)).1⟩

/-- The first state, from the bits that choose it. -/
@[inline] def start? (table : Table) (bits : Bits) : Option (State × Bits) :=
  match bits.read? table.log with
  | none => none
  | some (index, bits) => some (table.states.getD index default, bits)

/-- The state after a state. -/
@[inline] def next? (table : Table) (state : State) (bits : Bits) : Option (State × Bits) :=
  match bits.read? state.bits with
  | none => none
  | some (offset, bits) => some (table.states.getD (state.base + offset) default, bits)

end Table

/-! ### Counts -/

/-- How many symbols in a row do not occur: pairs of bits are added up as long as they are 3. Gives up
beyond `room`. -/
def skipped (bytes : ByteArray) (room pos sum : Nat) : Nat × Nat :=
  let pair := bitsAt bytes pos 2
  if pair = 3 then
    if sum < room then skipped bytes room (pos + 2) (sum + 3) else (sum + 3, pos + 2)
  else (sum + pair, pos + 2)
termination_by room - sum

/-- Reads the counts from bit `pos` on. One less than `remaining` is still to be shared out among
symbols up to `last`; a symbol that does not occur is followed by the number of those that do not
occur after it. -/
def readFrom (bytes : ByteArray) (last remaining pos : Nat) (afterZero : Bool)
    (counts : Array Count) : Option (Array Count × Nat) :=
  let (zeros, pos) := if afterZero then skipped bytes last pos 0 else (0, pos)
  if last < counts.size + zeros then none
  else
    let counts := counts ++ Array.replicate zeros (Count.times 0)
    let width := remaining.log2 + 1
    let half := 2 ^ (width - 1)
    let short := 2 * half - 1 - remaining
    let low := bitsAt bytes pos (width - 1)
    let full := bitsAt bytes pos width
    let (value, pos) :=
      if low < short then (low, pos + width - 1)
      else (if half ≤ full then full - short else full, pos + width)
    let count := if value = 0 then Count.rare else .times (value - 1)
    let remaining := remaining - count.size
    let counts := counts.push count
    if remaining ≤ 1 then some (counts, pos)
    else if last < counts.size then none
    else readFrom bytes last remaining pos (value = 1) counts
termination_by last + 1 - counts.size
decreasing_by
  simp only [Array.size_push, Array.size_append, Array.size_replicate] at *
  omega

/-- The least number of bits that choose the first state. -/
def leastLog : Nat := 5

/-- Reads counts for symbols up to `last`, no more than `2 ^ maxLog` in all: their table, and the
number of octets that it takes. -/
def readTable (bytes : ByteArray) (last maxLog : Nat) : Option (Table × Nat) :=
  let log := bitsAt bytes 0 4 + leastLog
  if 15 < log then none
  else
    match readFrom bytes last (2 ^ log + 1) 4 false #[] with
    | none => none
    | some (counts, pos) =>
      let size := (pos + 7) / 8
      if bytes.size < size ∨ maxLog < log then none else some (.ofCounts log counts, size)

end TypedPacket.Zstd.Fse
