import TypedPacket.Compression.Basic
import TypedPacket.Compression.Checksum
import TypedPacket.Compression.Zstd.Block

/-!
# Zstandard frames

Zstandard octets are frames one after another, at least one. A frame has a header, which may tell the
size of its content, then blocks, and it may end with a checksum. A block repeats one octet, holds
octets as they are, or is compressed; it may not be larger than the window of its frame. Frames to be
skipped have a size and nothing else that matters.

A frame that tells a content of at most `Header.smallContent` octets is expanded at once and others
block by block, which shows where a frame breaks the rules: at once the content has to have the size
that the header tells, block by block that size is looked at only where the last block is not empty.
-/

set_option autoImplicit false
set_option relaxedAutoImplicit false

namespace TypedPacket.Zstd

/-- What the header of a frame tells. -/
structure Header where
  window : Nat
  content : Option Nat
  hasChecksum : Bool
  deriving DecidableEq, Repr

namespace Header

/-- The word that every frame starts with. -/
def magic : UInt32 := 0xFD2FB528

/-- The words that frames to be skipped start with differ in their four lowest bits. -/
def skipMagic : UInt32 := 0x184D2A50

/-- The window of the octet that describes it, below 4 GiB. -/
def windowOf? (octet : UInt8) : Option Nat :=
  let log := 10 + octet.toNat / 8
  if 31 < log then none else some (2 ^ log + 2 ^ log / 8 * (octet.toNat % 8))

/-- The number in `size` octets. -/
def numberAt (bytes : ByteArray) (pos size : Nat) : Nat :=
  ofLittleEndian (octets (bytes.extract pos (pos + size)))

/-- Reads the header of a frame after its magic: what it tells, and the index of what follows it.
There may be no dictionary. -/
def read? (bytes : ByteArray) (pos : Nat) : Option (Header × { next : Nat // pos < next }) :=
  let descriptor := (octetAt bytes pos).toNat
  let alone := descriptor / 32 % 2 = 1
  let windowPos := pos + 1
  let dictionaryPos := windowPos + if alone then 0 else 1
  let dictionarySize := [0, 1, 2, 4].getD (descriptor % 4) 0
  let contentPos := dictionaryPos + dictionarySize
  let contentSize := [if alone then 1 else 0, 2, 4, 8].getD (descriptor / 64) 0
  let next := contentPos + contentSize
  if bytes.size < next ∨ descriptor / 8 % 2 = 1 ∨
      numberAt bytes dictionaryPos dictionarySize ≠ 0 then none
  else
    let number := numberAt bytes contentPos contentSize
    let content :=
      if contentSize = 0 then none else if contentSize = 2 then some (number + 256) else some number
    let window := if alone then content else windowOf? (octetAt bytes windowPos)
    window.map fun window =>
      (⟨window, content, descriptor / 4 % 2 = 1⟩,
        ⟨next, by simp only [next, contentPos, dictionaryPos, windowPos]; omega⟩)

/-- The most octets of a content that is expanded at once. -/
def smallContent : Nat := 32

/-- The frame is expanded at once. -/
def atOnce (header : Header) : Bool :=
  match header.content with
  | none => false
  | some size => size ≤ smallContent

/-- The largest window of a frame that is expanded block by block. -/
def largestWindow : Nat := 2 ^ 27

/-- Refuses a window that would take too much memory. -/
def isAffordable (header : Header) : Bool := header.atOnce || header.window ≤ largestWindow

/-- The most octets of a block, and of what it expands to. -/
def blockLimit (header : Header) : Nat := min header.window (128 * 1024)

/-- The content has the size that the header tells. -/
def agrees (header : Header) (size : Nat) : Bool :=
  match header.content with
  | none => true
  | some told => told = size

/-- The content is not yet larger than the header tells. -/
def allows (header : Header) (size : Nat) : Bool :=
  match header.content with
  | none => true
  | some told => size ≤ told

end Header

namespace Block

/-- What a block expands to, after what is `written`. -/
def contents (header : Header) (kind size : Nat) (body : ByteArray) (memory : Memory)
    (written : ByteArray) : Option (ByteArray × Memory) :=
  match kind with
  | 0 => some (written ++ body, memory)
  | 1 =>
    if !header.atOnce && header.blockLimit < size then none
    else some (written ++ ⟨Array.replicate size (octetAt body 0)⟩, memory)
  | _ => expand body header.blockLimit memory written

end Block

/-! ### Expanding -/

/-- A checksum in front of `next`, if there is to be one, is that of the content. -/
def isIntact (header : Header) (bytes : ByteArray) (pos : Nat) (content : ByteArray) : Bool :=
  !header.hasChecksum ||
    (pos + 4 ≤ bytes.size && word32At bytes pos == (Checksum.ofBytes content).toUInt32)

/-- The end of the checksum, if there is to be one. -/
def Header.afterChecksum (header : Header) (pos : Nat) : Nat :=
  if header.hasChecksum then pos + 4 else pos

theorem Header.le_afterChecksum (header : Header) (pos : Nat) : pos ≤ header.afterChecksum pos := by
  unfold afterChecksum
  split <;> omega

mutual

/-- What the frames from `pos` on expand to; `any` if there was one before. -/
def frames (bytes : ByteArray) (pos : Nat) (any : Bool) : Chunks :=
  if _h : pos < bytes.size then
    if bytes.size < pos + 4 then .broken
    else if word32At bytes pos &&& 0xFFFFFFF0 == Header.skipMagic then
      let next := pos + 8 + Header.numberAt bytes (pos + 4) 4
      if bytes.size < pos + 8 ∨ bytes.size < next then .broken else frames bytes next true
    else if word32At bytes pos == Header.magic then
      match Header.read? bytes (pos + 4) with
      | none => .broken
      | some (header, next) =>
        if header.isAffordable then blocks bytes header next.val .initial .empty else .broken
    else .broken
  else if any then .done
  else .broken
termination_by bytes.size - pos
decreasing_by
  · omega
  · have := next.property
    omega

/-- What the blocks of a frame from `pos` on expand to, after what is `written` of it. -/
def blocks (bytes : ByteArray) (header : Header) (pos : Nat) (memory : Memory)
    (written : ByteArray) : Chunks :=
  if _h : pos + 3 ≤ bytes.size then
    let word := Header.numberAt bytes pos 3
    let isLast := word % 2 = 1
    let kind := word / 2 % 4
    let size := word / 8
    let bodySize := if kind = 1 then 1 else size
    let next := pos + 3 + bodySize
    if kind = 3 ∨ bytes.size < next then .broken
    else if !header.atOnce && header.blockLimit < bodySize then .broken
    else if !header.atOnce && bodySize = 0 then
      if !isLast then blocks bytes header next memory written
      else if isIntact header bytes next written then
        frames bytes (header.afterChecksum next) true
      else .broken
    else
      let before := written.size
      match Block.contents header kind size (bytes.extract (pos + 3) next) memory written with
      | none => .broken
      | some (written, memory) =>
        if header.allows written.size then
          .more (written.extract before written.size) fun _ =>
            if !isLast then blocks bytes header next memory written
            else if header.agrees written.size && isIntact header bytes next written then
              frames bytes (header.afterChecksum next) true
            else .broken
        else .broken
  else .broken
termination_by bytes.size - pos
decreasing_by
  · omega
  · exact Nat.sub_lt_sub_left (by omega)
      (Nat.lt_of_lt_of_le (by omega) (Header.le_afterChecksum _ _))
  · omega
  · exact Nat.sub_lt_sub_left (by omega)
      (Nat.lt_of_lt_of_le (by omega) (Header.le_afterChecksum _ _))

end

/-- What octets expand to. -/
def expand (bytes : ByteArray) : Chunks := frames bytes 0 false

end TypedPacket.Zstd
