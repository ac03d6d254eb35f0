import TypedPacket.Compression.Zstd.Huffman

/-!
# Literals of a block

The literals of a block stand together at its front: as they are, as one octet to be repeated, or in a
Huffman code that is given there or was used before.
-/

set_option autoImplicit false
set_option relaxedAutoImplicit false

namespace TypedPacket.Zstd

/-- The literals of a block, the Huffman code to go on with, and the octets that the section takes. -/
structure Literals where
  octets : ByteArray
  code : Option Huffman.Table
  size : Nat

namespace Literals

/-- Reads literals that are stored as they are, or as one octet. -/
def readPlain (block : ByteArray) (repeated : Bool) (limit : Nat) (code : Option Huffman.Table) :
    Option Literals :=
  let first := (octetAt block 0).toNat
  let (head, count) :=
    match first / 4 % 4 with
    | 1 => (2, bitsAt block 4 12)
    | 3 => (3, bitsAt block 4 20)
    | _ => (1, first / 8)
  let size := head + if repeated then 1 else count
  if block.size < size ∨ limit < count then none
  else if repeated then
    some ⟨⟨Array.replicate count (octetAt block head)⟩, code, size⟩
  else some ⟨block.extract head size, code, size⟩

/-- Four streams hold no fewer literals than this. -/
def leastOfFour : Nat := 6

/-- Reads literals in a Huffman code: a new one, or the one from before. -/
def readCoded (block : ByteArray) (again : Bool) (limit : Nat) (code : Option Huffman.Table) :
    Option Literals := do
  let form := (octetAt block 0).toNat / 4 % 4
  let (head, width) :=
    match form with
    | 2 => (4, 14)
    | 3 => (5, 18)
    | _ => (3, 10)
  let count := bitsAt block 4 width
  let size := head + bitsAt block (4 + width) width
  if block.size < 5 ∨ block.size < size ∨ limit < count ∨ (form ≠ 0 ∧ count < leastOfFour) then none
  else
    let coded := block.extract head size
    let (table, used) ←
      if again then code.map (·, 0) else Huffman.readTable coded
    let streams := coded.extract used coded.size
    let octets ←
      if form = 0 then Huffman.decode table streams count .empty
      else Huffman.decodeFour table streams count
    some ⟨octets, some table, size⟩

/-- Reads the literals at the front of a block, no more than `limit`. -/
def read (block : ByteArray) (limit : Nat) (code : Option Huffman.Table) : Option Literals :=
  match (octetAt block 0).toNat % 4 with
  | 0 => readPlain block false limit code
  | 1 => readPlain block true limit code
  | 2 => readCoded block false limit code
  | _ => readCoded block true limit code

end Literals

end TypedPacket.Zstd
