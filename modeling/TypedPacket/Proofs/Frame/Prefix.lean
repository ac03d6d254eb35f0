import TypedPacket.Packet.Frame
import TypedPacket.Proofs.FixedWidth
import TypedPacket.Proofs.Result

/-!
# The front of a frame

A header is read back from its octets (`PacketHeader.decode_bytes`), and so is a prefix of the one
version there is that announces an allowed header and a body within the limit
(`FramePrefix.parse_write_append`), which is read from no other octets
(`FramePrefix.parse_eq_some_iff`). A prefix is read from its fourteen octets alone: what follows
them changes neither the prefix nor the reason to refuse it (`FramePrefix.parse_append`).
-/

set_option autoImplicit false
set_option relaxedAutoImplicit false

namespace TypedPacket

/-! ### Headers -/

namespace PacketHeader

/-- The kind, two tags, the capture time and the number of metadata entries are always there. -/
theorem le_size (header : PacketHeader) : 22 ≤ header.size := by
  obtain ⟨kind, typeDescriptor, captureTime, series, metadata⟩ := header
  simp only [size, toRow, FixedWidth.rowSize, FixedWidth.size, Width.size]
  cases typeDescriptor <;> cases series <;> simp only [FixedWidth.textSize] <;> omega

theorem indexable_schema : ∀ field ∈ schema.fields, FixedWidth.Indexable field.type := by
  simp only [List.forall_mem_cons, FixedWidth.Indexable, PayloadKind.choice, true_and,
    List.length_cons, List.length_nil]
  exact ⟨by decide, fun field hfield ↦ absurd hfield List.not_mem_nil⟩

/-- What fits in a frame can be counted in a word. -/
theorem lt_of_le_maxSize {n : Nat} (h : n ≤ maxSize) : n < 2 ^ 64 :=
  Nat.lt_of_le_of_lt h (by decide)

theorem decode_bytes {header : PacketHeader} (hsize : header.size < 2 ^ 64) :
    decode header.bytes = .ok header := by
  have hread := FixedWidth.readRow_writeRow indexable_schema hsize .empty
  rw [ByteArray.append_empty] at hread
  simp only [decode, bytes, hread, ByteArray.size_empty, if_true, ofRow_toRow]

/-- A header is encoded exactly if it fits in a frame. -/
theorem encode_eq_ok_iff {header : PacketHeader} {encoded : ByteArray} :
    header.encode = .ok encoded ↔ header.size ≤ maxSize ∧ encoded = header.bytes := by
  unfold encode
  rw [bind_eq_ok_iff]
  constructor
  · rintro ⟨⟨⟩, hsize, hencoded⟩
    exact ⟨checkSize_eq_ok_iff.mp hsize, (Except.ok.inj hencoded).symm⟩
  · rintro ⟨hsize, rfl⟩
    exact ⟨(), checkSize_eq_ok_iff.mpr hsize, rfl⟩

theorem eq_invalidHeader_of_decode {bytes : ByteArray} {error : PacketError}
    (h : decode bytes = .error error) : error = .invalidHeader := by
  unfold decode at h
  split at h
  · split at h
    · cases h
    · exact (Except.error.inj h).symm
  · exact (Except.error.inj h).symm

end PacketHeader

/-! ### Prefixes -/

namespace FramePrefix

/-- A prefix that a reader with the limit accepts and whose sizes fit in their fields. -/
structure Admitted (limit : Nat) (pre : FramePrefix) : Prop where
  headerSize_pos : 0 < pre.headerSize
  headerSize_le : pre.headerSize ≤ PacketHeader.maxSize
  bodySize_le : pre.bodySize ≤ limit
  bodySize_lt : pre.bodySize < 2 ^ 32

theorem Admitted.headerSize_lt {limit : Nat} {pre : FramePrefix} (hpre : pre.Admitted limit) :
    pre.headerSize < 2 ^ 32 :=
  Nat.lt_of_le_of_lt hpre.headerSize_le (by decide)

theorem bigEndian_four (n : Nat) : ∃ a b c d, bigEndian 4 n = [a, b, c, d] :=
  ⟨_, _, _, _, rfl⟩

theorem size_le_frameSize (pre : FramePrefix) : size ≤ pre.frameSize := by
  rw [frameSize]
  omega

theorem length_write (pre : FramePrefix) (version : UInt8) :
    (pre.write version).length = size := by
  simp only [write, magic, List.length_append, List.length_cons, List.length_nil,
    length_bigEndian, size]

/-- A prefix with sizes that fit is read back, or refused for the size of the body alone. -/
theorem read_write_eq_ite {pre : FramePrefix} (hpos : 0 < pre.headerSize)
    (hheader : pre.headerSize ≤ PacketHeader.maxSize) (hbody : pre.bodySize < 2 ^ 32)
    (limit : Nat) :
    read limit (pre.write version) =
      if limit < pre.bodySize then .error (.oversized pre.bodySize) else .ok pre := by
  obtain ⟨h0, h1, h2, h3, hheaderOctets⟩ := bigEndian_four pre.headerSize
  obtain ⟨b0, b1, b2, b3, hbodyOctets⟩ := bigEndian_four pre.bodySize
  have hheaderValue : ofBigEndian [h0, h1, h2, h3] = pre.headerSize := by
    rw [← hheaderOctets, ofBigEndian_bigEndian]
    exact Nat.mod_eq_of_lt (Nat.lt_of_le_of_lt hheader (by decide))
  have hbodyValue : ofBigEndian [b0, b1, b2, b3] = pre.bodySize := by
    rw [← hbodyOctets, ofBigEndian_bigEndian]
    exact Nat.mod_eq_of_lt hbody
  have hheaderRange : ¬ (pre.headerSize = 0 ∨ PacketHeader.maxSize < pre.headerSize) := by omega
  rw [write, hheaderOctets, hbodyOctets]
  simp only [magic, List.cons_append, List.nil_append, read, ne_eq, not_true_eq_false, if_false,
    ofFlag?_flag, hheaderValue, hbodyValue, hheaderRange]

theorem read_write {limit : Nat} {pre : FramePrefix} (hpre : pre.Admitted limit) :
    read limit (pre.write version) = .ok pre := by
  rw [read_write_eq_ite hpre.headerSize_pos hpre.headerSize_le hpre.bodySize_lt,
    if_neg (Nat.not_lt.mpr hpre.bodySize_le)]

theorem flag_of_ofFlag? {octet : UInt8} {compression : Option CompressionKind}
    (h : ofFlag? octet = some compression) : flag compression = octet := by
  have hfound := List.find?_some h
  exact beq_iff_eq.mp hfound

theorem flag_mem (compression : Option CompressionKind) :
    flag compression = 0 ∨ flag compression = 1 ∨ flag compression = 2 := by
  rcases compression with _ | _ | _ <;> decide

theorem exists_flag_eq {octet : UInt8} (h : octet = 0 ∨ octet = 1 ∨ octet = 2) :
    ∃ compression, flag compression = octet := by
  rcases h with rfl | rfl | rfl
  · exact ⟨none, rfl⟩
  · exact ⟨some .lz4, rfl⟩
  · exact ⟨some .zstd, rfl⟩

theorem flag_eq_zero_iff (compression : Option CompressionKind) :
    flag compression = 0 ↔ compression = none := by
  rcases compression with _ | _ | _ <;> decide

theorem flag_eq_one_iff (compression : Option CompressionKind) :
    flag compression = 1 ↔ compression = some .lz4 := by
  rcases compression with _ | _ | _ <;> decide

theorem ofFlag?_eq_none {octet : UInt8} (h : ¬ (octet = 0 ∨ octet = 1 ∨ octet = 2)) :
    ofFlag? octet = none := by
  cases hfound : ofFlag? octet with
  | none => rfl
  | some compression =>
    rw [← flag_of_ofFlag? hfound] at h
    exact absurd (flag_mem compression) h

/-- A prefix is read only from the octets it is written as. -/
theorem eq_write_of_read {limit : Nat} {l : List UInt8} {pre : FramePrefix}
    (h : read limit l = .ok pre) : pre.Admitted limit ∧ l = pre.write version := by
  unfold read at h
  split at h
  · rename_i m0 m1 m2 m3 found octet h0 h1 h2 h3 b0 b1 b2 b3
    split at h
    · cases h
    rename_i hmagic
    split at h
    · cases h
    rename_i hversion
    split at h
    · cases h
    rename_i compression hflag
    dsimp only at h
    split at h
    · cases h
    rename_i hheader
    split at h
    · cases h
    rename_i hbody
    obtain rfl := Except.ok.inj h
    have hheaderOctets : bigEndian 4 (ofBigEndian [h0, h1, h2, h3]) = [h0, h1, h2, h3] :=
      bigEndian_ofBigEndian [h0, h1, h2, h3]
    have hbodyOctets : bigEndian 4 (ofBigEndian [b0, b1, b2, b3]) = [b0, b1, b2, b3] :=
      bigEndian_ofBigEndian [b0, b1, b2, b3]
    have hfits : ofBigEndian [b0, b1, b2, b3] < 256 ^ 4 := ofBigEndian_lt _
    refine ⟨⟨?_, ?_, Nat.le_of_not_lt hbody, ?_⟩, ?_⟩
    · dsimp only
      omega
    · dsimp only
      omega
    · dsimp only
      omega
    · rw [write, hheaderOctets, hbodyOctets, flag_of_ofFlag? hflag, ← Classical.not_not.mp hmagic,
        ← Classical.not_not.mp hversion]
      rfl
  · cases h

/-- What is read within one limit is read within any other, or refused there for the size of the
body. -/
theorem read_of_read {wider : Nat} {l : List UInt8} {pre : FramePrefix}
    (h : read wider l = .ok pre) (limit : Nat) :
    read limit l = if limit < pre.bodySize then .error (.oversized pre.bodySize) else .ok pre := by
  obtain ⟨hpre, rfl⟩ := eq_write_of_read h
  exact read_write_eq_ite hpre.headerSize_pos hpre.headerSize_le hpre.bodySize_lt limit

/-- What follows the octets of a prefix does not change what is read of it. -/
theorem parse_append (limit : Nat) {bytes : ByteArray} (hbytes : size ≤ bytes.size)
    (more : ByteArray) : parse limit (bytes ++ more) = parse limit bytes := by
  have hshort : ¬ bytes.size < size := Nat.not_lt.mpr hbytes
  have hlong : ¬ (bytes ++ more).size < size := by
    rw [ByteArray.size_append]
    omega
  have hfront : (bytes ++ more).extract 0 size = bytes.extract 0 size := by
    apply octets_inj.mp
    rw [octets_extract, octets_extract, octets_append, List.take_append_of_le_length]
    rwa [length_octets]
  rw [parse, parse, if_neg hshort, if_neg hlong, hfront]

theorem parse_write_append {limit : Nat} {pre : FramePrefix} (hpre : pre.Admitted limit)
    (more : ByteArray) :
    parse limit ((pre.write version).toByteArray ++ more) = .ok (some pre) := by
  have hsize : (pre.write version).toByteArray.size = size := by
    rw [List.size_toByteArray, length_write]
  rw [parse_append limit (Nat.le_of_eq hsize.symm), parse, if_neg (by omega), ← hsize,
    ByteArray.extract_zero_size, octets_toByteArray, read_write hpre]
  rfl

/-- A prefix is found exactly in front of octets that it is written as. -/
theorem parse_eq_some_iff {limit : Nat} {bytes : ByteArray} {pre : FramePrefix} :
    parse limit bytes = .ok (some pre) ↔
      pre.Admitted limit ∧ ∃ rest, bytes = (pre.write version).toByteArray ++ rest := by
  constructor
  · intro h
    unfold parse at h
    split at h
    · cases h
    rename_i hlong
    cases hread : read limit (octets (bytes.extract 0 size)) with
    | error error => simp only [hread, Except.map, reduceCtorEq] at h
    | ok found =>
      simp only [hread, Except.map, Except.ok.injEq, Option.some.injEq] at h
      subst h
      obtain ⟨hadmitted, hwritten⟩ := eq_write_of_read hread
      refine ⟨hadmitted, bytes.extract size bytes.size, ?_⟩
      have hfront : (found.write version).toByteArray = bytes.extract 0 size := by
        apply octets_inj.mp
        rw [octets_toByteArray, hwritten]
      rw [hfront, ← ByteArray.extract_eq_extract_append_extract _ (Nat.zero_le _)
        (Nat.le_of_not_lt hlong), ByteArray.extract_zero_size]
  · rintro ⟨hadmitted, rest, rfl⟩
    exact parse_write_append hadmitted rest

/-- A prefix that is found within one limit is found within any other, or refused there for the size
of the body. -/
theorem parse_of_parse {wider : Nat} {bytes : ByteArray} {pre : FramePrefix}
    (h : parse wider bytes = .ok (some pre)) (limit : Nat) :
    parse limit bytes =
      if limit < pre.bodySize then .error (.oversized pre.bodySize) else .ok (some pre) := by
  unfold parse at h ⊢
  split at h
  · cases h
  rename_i hlong
  rw [if_neg hlong]
  cases hread : read wider (octets (bytes.extract 0 size)) with
  | error error => simp only [hread, Except.map, reduceCtorEq] at h
  | ok found =>
    simp only [hread, Except.map, Except.ok.injEq, Option.some.injEq] at h
    subst h
    rw [read_of_read hread limit]
    split <;> rfl

/-- A prefix is waited for exactly while its octets are not all there. -/
theorem parse_eq_none_iff {limit : Nat} {bytes : ByteArray} :
    parse limit bytes = .ok none ↔ bytes.size < size := by
  unfold parse
  split
  · rename_i hshort
    exact ⟨fun _ ↦ hshort, fun _ ↦ rfl⟩
  · rename_i hlong
    refine ⟨fun h ↦ ?_, fun hshort ↦ absurd hshort hlong⟩
    cases hread : read limit (octets (bytes.extract 0 size)) with
    | error error => simp only [hread, Except.map, reduceCtorEq] at h
    | ok pre => simp only [hread, Except.map, Except.ok.injEq, reduceCtorEq] at h

/-- A prefix that is refused is refused for the same reason whatever follows. -/
theorem parse_append_of_error {limit : Nat} {bytes : ByteArray} {error : PacketError}
    (h : parse limit bytes = .error error) (more : ByteArray) :
    parse limit (bytes ++ more) = .error error := by
  have hlong : ¬ bytes.size < size := by
    intro hshort
    rw [parse_eq_none_iff.mpr hshort] at h
    cases h
  rw [parse_append limit (Nat.le_of_not_lt hlong), h]

theorem octets_extract_size {bytes : ByteArray} (hbytes : size ≤ bytes.size) :
    octets (bytes.extract 0 size) =
      [octetAt bytes 0, octetAt bytes 1, octetAt bytes 2, octetAt bytes 3, octetAt bytes 4,
        octetAt bytes 5, octetAt bytes 6, octetAt bytes 7, octetAt bytes 8, octetAt bytes 9,
        octetAt bytes 10, octetAt bytes 11, octetAt bytes 12, octetAt bytes 13] := by
  rw [octets_extract, take_octets hbytes, List.drop_zero]
  rfl

end FramePrefix

end TypedPacket
