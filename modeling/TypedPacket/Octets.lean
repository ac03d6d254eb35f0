import TypedPacket.Instances

/-!
# Byte strings

Byte strings are kept as `ByteArray`. Laws about them are stated through one view, the list of their
octets (`octets`), which turns concatenation into `++` and a slice into `take` and `drop`
(`octets_append`, `octets_extract`), and which loses nothing (`octets_inj`).

Words of any width are written least significant octet first (`littleEndian`) or most significant
octet first (`bigEndian`). Reading them back gives the number again, reduced to the width
(`ofLittleEndian_littleEndian`, `ofBigEndian_bigEndian`), and writing what was read gives the octets
again (`littleEndian_ofLittleEndian`, `bigEndian_ofBigEndian`).
-/

set_option autoImplicit false
set_option relaxedAutoImplicit false

namespace TypedPacket

/-- The octets of a byte string, in order. -/
def octets (bytes : ByteArray) : List UInt8 := bytes.data.toList

@[simp] theorem octets_append (a b : ByteArray) : octets (a ++ b) = octets a ++ octets b := by
  simp [octets]

@[simp] theorem octets_empty : octets ByteArray.empty = [] := rfl

@[simp] theorem octets_toByteArray (l : List UInt8) : octets l.toByteArray = l := by
  simp [octets]

@[simp] theorem length_octets (b : ByteArray) : (octets b).length = b.size := by
  simp only [octets, Array.length_toList, ByteArray.size_data]

@[simp] theorem octets_push (b : ByteArray) (x : UInt8) : octets (b.push x) = octets b ++ [x] := by
  simp [octets]

theorem octets_extract (b : ByteArray) (first last : Nat) :
    octets (b.extract first last) = ((octets b).take last).drop first := by
  simp [octets, List.extract_eq_take_drop, List.drop_take]

theorem octets_inj {a b : ByteArray} : octets a = octets b ↔ a = b := by
  constructor
  · intro h
    apply ByteArray.ext
    exact Array.toList_inj.1 h
  · rintro rfl
    rfl

/-- The `width` low octets of a number, least significant first. -/
def littleEndian : Nat → Nat → List UInt8
  | 0, _ => []
  | width + 1, n => UInt8.ofNat n :: littleEndian width (n / 256)

/-- The number whose octets are given least significant first. -/
def ofLittleEndian : List UInt8 → Nat
  | [] => 0
  | octet :: rest => octet.toNat + 256 * ofLittleEndian rest

/-- The `width` low octets of a number, most significant first. -/
def bigEndian (width n : Nat) : List UInt8 := (littleEndian width n).reverse

/-- The number whose octets are given most significant first. -/
def ofBigEndian (l : List UInt8) : Nat := ofLittleEndian l.reverse

@[simp] theorem length_littleEndian (width n : Nat) : (littleEndian width n).length = width := by
  induction width generalizing n with
  | zero => rfl
  | succ width ih => simp [littleEndian, ih]

@[simp] theorem length_bigEndian (width n : Nat) : (bigEndian width n).length = width := by
  simp [bigEndian]

theorem ofLittleEndian_littleEndian (width n : Nat) :
    ofLittleEndian (littleEndian width n) = n % 256 ^ width := by
  induction width generalizing n with
  | zero => simp [littleEndian, ofLittleEndian, Nat.mod_one]
  | succ width ih =>
    have low : (UInt8.ofNat n).toNat = n % 256 := by simp
    rw [littleEndian, ofLittleEndian, ih, low, Nat.pow_succ, Nat.mul_comm (256 ^ width) 256,
      Nat.mod_mul]

theorem ofBigEndian_bigEndian (width n : Nat) :
    ofBigEndian (bigEndian width n) = n % 256 ^ width := by
  simp [ofBigEndian, bigEndian, ofLittleEndian_littleEndian]

/-- Every list of octets is a word of its own width. -/
theorem littleEndian_ofLittleEndian (l : List UInt8) :
    littleEndian l.length (ofLittleEndian l) = l := by
  induction l with
  | nil => rfl
  | cons octet rest ih =>
    have hoctet := octet.toNat_lt
    have hlow : UInt8.ofNat (octet.toNat + 256 * ofLittleEndian rest) = octet := by
      apply UInt8.toNat_inj.mp
      rw [UInt8.toNat_ofNat']
      omega
    have hhigh : (octet.toNat + 256 * ofLittleEndian rest) / 256 = ofLittleEndian rest := by
      omega
    rw [List.length_cons, ofLittleEndian, littleEndian, hlow, hhigh, ih]

theorem bigEndian_ofBigEndian (l : List UInt8) : bigEndian l.length (ofBigEndian l) = l := by
  have hreverse := littleEndian_ofLittleEndian l.reverse
  rw [List.length_reverse] at hreverse
  rw [bigEndian, ofBigEndian, hreverse, List.reverse_reverse]

theorem ofLittleEndian_lt (l : List UInt8) : ofLittleEndian l < 256 ^ l.length := by
  induction l with
  | nil => simp [ofLittleEndian]
  | cons octet rest ih =>
    have := octet.toNat_lt
    simp only [ofLittleEndian, List.length_cons, Nat.pow_succ]
    omega

theorem ofBigEndian_lt (l : List UInt8) : ofBigEndian l < 256 ^ l.length := by
  rw [ofBigEndian, ← List.length_reverse]
  exact ofLittleEndian_lt l.reverse

/-! ### Octets by index -/

/-- The octet at an index, 0 beyond the end. -/
@[inline] def octetAt (bytes : ByteArray) (index : Nat) : UInt8 :=
  if h : index < bytes.size then bytes[index] else 0

theorem octetAt_eq_getD (bytes : ByteArray) (index : Nat) :
    octetAt bytes index = (octets bytes)[index]?.getD 0 := by
  unfold octetAt
  split
  · rename_i h
    rw [List.getElem?_eq_getElem (by rwa [length_octets]), Option.getD_some]
    rfl
  · rename_i h
    rw [List.getElem?_eq_none (by rw [length_octets]; omega), Option.getD_none]

theorem take_octets {bytes : ByteArray} {n : Nat} (hn : n ≤ bytes.size) :
    (octets bytes).take n = (List.range n).map (octetAt bytes) := by
  have hlength : ((octets bytes).take n).length = n := by
    rw [List.length_take, length_octets]
    omega
  apply List.ext_getElem
  · rw [hlength, List.length_map, List.length_range]
  · intro i hi _
    have hbound : i < (octets bytes).length := by
      rw [length_octets]
      omega
    rw [List.getElem_take, List.getElem_map, List.getElem_range, octetAt_eq_getD,
      List.getElem?_eq_getElem hbound, Option.getD_some]

/-- Four octets as one word, least significant first. -/
@[inline] def word32At (bytes : ByteArray) (index : Nat) : UInt32 :=
  (octetAt bytes index).toUInt32 ||| (octetAt bytes (index + 1)).toUInt32 <<< 8 |||
    (octetAt bytes (index + 2)).toUInt32 <<< 16 ||| (octetAt bytes (index + 3)).toUInt32 <<< 24

/-- Eight octets as one word, least significant first. -/
@[inline] def word64At (bytes : ByteArray) (index : Nat) : UInt64 :=
  (word32At bytes index).toUInt64 ||| (word32At bytes (index + 4)).toUInt64 <<< 32

end TypedPacket
