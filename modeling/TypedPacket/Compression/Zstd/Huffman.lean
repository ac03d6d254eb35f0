import TypedPacket.Compression.Zstd.Fse

/-!
# Huffman codes of literals

A Huffman code is given by the weights of its octets: an octet of weight `w` has `2 ^ (w - 1)` of the
entries of the table, so the heavier it is the shorter its code. The weight of the last octet is left
out, for the entries fill up a power of two. The weights themselves are written as fields of four bits
or in a finite-state code.
-/

set_option autoImplicit false
set_option relaxedAutoImplicit false

namespace TypedPacket.Zstd.Huffman

/-- What the next bits stand for: an octet, and the number of bits of its code. -/
structure Entry where
  octet : UInt8
  bits : Nat
  deriving DecidableEq, Repr, Inhabited

/-- The octets by the next `log` bits. -/
structure Table where
  log : Nat
  entries : Array Entry
  deriving DecidableEq, Repr, Inhabited

/-- The most bits of a code. -/
def maxLog : Nat := 12

/-- The entries of an octet of some weight. -/
def share (weight : Nat) : Nat := if weight = 0 then 0 else 2 ^ (weight - 1)

/-- The table of a code whose octets have the given weights, the last of them left out. The rest of
the entries has to be the share of a weight, and an even number of octets, at least two, has to have
the longest codes. -/
def ofWeights? (weights : List Nat) : Option Table :=
  let total := weights.foldl (fun total weight => total + share weight) 0
  if total = 0 ∨ weights.any (maxLog < ·) then none
  else
    let log := total.log2 + 1
    let rest := 2 ^ log - total
    let weights := weights ++ [rest.log2 + 1]
    let longest := weights.count 1
    if maxLog < log ∨ rest ≠ 2 ^ rest.log2 ∨ longest < 2 ∨ longest % 2 = 1 then none
    else
      let indexed := weights.zipIdx
      let entries := ((List.range log).map (· + 1)).flatMap fun weight =>
        indexed.flatMap fun (own, octet) =>
          if own = weight then
            List.replicate (share weight) ⟨UInt8.ofNat octet, log + 1 - weight⟩
          else []
      some ⟨log, entries.toArray⟩

/-! ### Weights -/

/-- The most weights that are written: that of the last octet is not. -/
def maxWeights : Nat := 255

/-- Weights in fields of four bits, `count` of them. -/
def directWeights (bytes : ByteArray) (pos count : Nat) : List Nat :=
  (List.range count).map fun i =>
    let octet := octetAt bytes (pos + i / 2)
    if i % 2 = 0 then (octet >>> 4).toNat else (octet &&& 15).toNat

/-- Weights in a finite-state code. Two states take turns until one of them runs out of bits; the other
then gives the last weight. -/
def codedWeights (table : Fse.Table) (bits : Bits) (this other : Fse.State) :
    Nat → Option (List Nat)
  | 0 => none
  | room + 1 =>
    match table.next? this bits with
    | none => if room = 0 then none else some [this.symbol, other.symbol]
    | some (next, bits) => (codedWeights table bits other next room).map (this.symbol :: ·)

/-- Reads a table from the front of octets: the table, and the number of octets that it takes. -/
def readTable (bytes : ByteArray) : Option (Table × Nat) :=
  if bytes.size = 0 then none
  else
    let first := (octetAt bytes 0).toNat
    if 128 ≤ first then
      let count := first - 127
      let size := 1 + (count + 1) / 2
      if bytes.size < size then none
      else (ofWeights? (directWeights bytes 1 count)).map (·, size)
    else if bytes.size < 1 + first then none
    else do
      let coded := bytes.extract 1 (1 + first)
      let (table, size) ← Fse.readTable coded maxWeights 6
      let bits ← Bits.ofBytes? (coded.extract size coded.size)
      let (this, bits) ← table.start? bits
      let (other, bits) ← table.start? bits
      let weights ← codedWeights table bits this other maxWeights
      let table ← ofWeights? weights
      some (table, 1 + first)

/-! ### Octets -/

/-- Decodes `count` octets that take up the bits exactly. -/
def decodeBits (table : Table) : Nat → Bits → ByteArray → Option ByteArray
  | 0, bits, written => if bits.left = 0 then some written else none
  | count + 1, bits, written =>
    let entry := table.entries.getD (bits.peek table.log) default
    if bits.left < entry.bits then none
    else decodeBits table count ⟨bits.bytes, bits.left - entry.bits⟩ (written.push entry.octet)

/-- Decodes `count` octets that take up the given ones exactly. -/
def decode (table : Table) (bytes : ByteArray) (count : Nat) (written : ByteArray) :
    Option ByteArray :=
  match Bits.ofBytes? bytes with
  | none => none
  | some bits => decodeBits table count bits written

/-- The octets in front of four streams that tell their sizes. -/
def jumpSize : Nat := 6

/-- Decodes `count` octets from four streams of equal parts, the last of which may be shorter. -/
def decodeFour (table : Table) (bytes : ByteArray) (count : Nat) : Option ByteArray := do
  let sizeAt := fun index => (octetAt bytes index).toNat + 256 * (octetAt bytes (index + 1)).toNat
  let second := jumpSize + sizeAt 0
  let third := second + sizeAt 2
  let fourth := third + sizeAt 4
  let part := (count + 3) / 4
  if bytes.size < jumpSize + 4 ∨ bytes.size < fourth ∨ count < 3 * part then none
  else
    let written ← decode table (bytes.extract jumpSize second) part .empty
    let written ← decode table (bytes.extract second third) part written
    let written ← decode table (bytes.extract third fourth) part written
    decode table (bytes.extract fourth bytes.size) (count - 3 * part) written

end TypedPacket.Zstd.Huffman
