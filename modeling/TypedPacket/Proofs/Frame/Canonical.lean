import TypedPacket.Proofs.FixedWidth.Inversion
import TypedPacket.Proofs.Frame.Grammar
import TypedPacket.Proofs.Frame.RoundTrip
import TypedPacket.Proofs.Text.Order

/-!
# Frames and their canonical form

A header leaves a sender one choice, the order and the repetition of its metadata entries: octets
decode to a header exactly if they are its octets with any entries that leave its metadata
(`PacketHeader.decode_eq_ok_iff`), and they hold these entries in one way
(`PacketHeader.bytesWith_inj`).

Writing the packet of a frame again without compression puts the frame in a canonical form
(`Packet.ofFrame_canonical`): the form opens to the packet, its header is no longer, and it is the
frame itself exactly if that is not compressed and the keys of its entries increase. So frames of
one packet differ by compression or by their entries, and in nothing else.
-/

set_option autoImplicit false
set_option relaxedAutoImplicit false

namespace TypedPacket

/-! ### Headers by their entries -/

namespace PacketHeader

variable {header : PacketHeader} {entries others : List (String × String)}

/-- The octets of a header up to its metadata. -/
def front (header : PacketHeader) : ByteArray :=
  FixedWidth.write (.choice PayloadKind.choice) header.kind.index ++
    FixedWidth.write .optionalText header.typeDescriptor ++
    FixedWidth.write (.word .w64) header.captureTime.toBitVec ++
    FixedWidth.write .optionalText header.series

/-- The octets of a header with any entries in the place of its metadata. -/
def bytesWith (header : PacketHeader) (entries : List (String × String)) : ByteArray :=
  header.front ++ (FixedWidth.length entries.length ++ FixedWidth.writeEntries entries)

theorem bytes_eq (header : PacketHeader) :
    header.bytes = header.bytesWith header.metadata.entries := by
  simp only [bytes, toRow, FixedWidth.writeRow, bytesWith, front, ByteArray.append_empty,
    ByteArray.append_assoc]
  rfl

/-- Only the metadata of a header can be spelled in more than one way. -/
theorem spellsRow_toRow_iff {bytes : ByteArray} :
    FixedWidth.SpellsRow header.toRow bytes ↔
      ∃ entries, TextMap.ofList entries = header.metadata ∧ bytes = header.bytesWith entries := by
  constructor
  · rintro ⟨kind, _, hkind, ⟨descriptor, _, hdescriptor, ⟨time, _, htime, ⟨series, _, hseries,
      ⟨metadata, _, hmetadata, rfl, rfl⟩, rfl⟩, rfl⟩, rfl⟩, rfl⟩
    obtain rfl := hkind.eq_write nofun
    obtain rfl := hdescriptor.eq_write nofun
    obtain rfl := htime.eq_write nofun
    obtain rfl := hseries.eq_write nofun
    obtain ⟨entries, hentries, rfl⟩ := FixedWidth.spells_textMap_iff.mp hmetadata
    refine ⟨entries, hentries, ?_⟩
    simp only [bytesWith, front, ByteArray.append_empty, ByteArray.append_assoc]
  · rintro ⟨entries, hentries, rfl⟩
    have hmetadata := FixedWidth.spells_textMap_iff.mpr ⟨entries, hentries, rfl⟩
    refine ⟨_, _, .written _ _, ⟨_, _, .written _ _, ⟨_, _, .written _ _, ⟨_, _, .written _ _,
      ⟨_, _, hmetadata, rfl, rfl⟩, rfl⟩, rfl⟩, rfl⟩, ?_⟩
    simp only [bytesWith, front, ByteArray.append_empty, ByteArray.append_assoc]

/-- Octets that decode to a header spell it. -/
theorem spellsRow_of_decode {bytes : ByteArray} (h : decode bytes = .ok header) :
    FixedWidth.SpellsRow header.toRow bytes := by
  unfold decode at h
  split at h
  · rename_i row rest hread
    split at h
    · rename_i hrest
      obtain rfl := Except.ok.inj h
      obtain ⟨front, hfront, rfl⟩ := FixedWidth.spellsRow_of_readRow hread
      obtain rfl := ByteArray.size_eq_zero_iff.mp hrest
      rwa [toRow_ofRow, ByteArray.append_empty]
    · cases h
  · cases h

/-- Octets that can be counted in a word decode to a header exactly if they are its octets with
entries that leave its metadata. -/
theorem decode_eq_ok_iff {bytes : ByteArray} (hbytes : bytes.size < 2 ^ 64) :
    decode bytes = .ok header ↔
      ∃ entries, TextMap.ofList entries = header.metadata ∧ bytes = header.bytesWith entries := by
  rw [← spellsRow_toRow_iff]
  refine ⟨spellsRow_of_decode, fun h ↦ ?_⟩
  have hread := h.readRow_append indexable_schema hbytes .empty
  rw [ByteArray.append_empty] at hread
  simp only [decode, hread, ByteArray.size_empty, if_true, ofRow_toRow]

theorem size_le_of_ofList (hentries : TextMap.ofList entries = header.metadata) :
    header.size ≤ (header.bytesWith entries).size :=
  (spellsRow_toRow_iff.mpr ⟨entries, hentries, rfl⟩).size_le

theorem entriesSize_lt (hsize : (header.bytesWith entries).size < 2 ^ 64) :
    FixedWidth.entriesSize entries < 2 ^ 64 := by
  rw [bytesWith, ByteArray.size_append, ByteArray.size_append,
    FixedWidth.size_writeEntries] at hsize
  omega

theorem bytesWith_inj (hsize : (header.bytesWith entries).size < 2 ^ 64)
    (h : header.bytesWith others = header.bytesWith entries) : others = entries := by
  have hothers : (header.bytesWith others).size < 2 ^ 64 := by rwa [h]
  rw [bytesWith, bytesWith, ByteArray.append_right_inj] at h
  exact FixedWidth.entries_inj (entriesSize_lt hothers) (entriesSize_lt hsize) h

end PacketHeader

/-! ### Frames of a packet -/

namespace Packet

variable {compressors : Compressors} {limit : Nat} {bytes : ByteArray} {packet : Packet}

/-- A frame of a packet: it is announced within the limit, it has the version of the packet, its
header is that of the packet with entries that leave its metadata, and the payload is in its body. -/
structure Frames (compressors : Compressors) (limit : Nat) (packet : Packet) (frame : Prepared)
    (entries : List (String × String)) : Prop where
  admitted : frame.Admitted limit
  version_eq : packet.version = frame.version
  ofList_entries : TextMap.ofList entries = packet.header.metadata
  header_eq : frame.header = packet.header.bytesWith entries
  payloadOf_eq : payloadOf compressors limit (FramePrefix.flag frame.compression) frame.body =
    .ok packet.payload

theorem ofFrame_eq_ok_iff_frames :
    ofFrame compressors limit bytes = .ok packet ↔
      ∃ frame entries, Frames compressors limit packet frame entries ∧ bytes = frame.bytes := by
  rw [ofFrame_eq_ok_iff]
  constructor
  · rintro ⟨frame, hframe, hbytes, hversion, hheader, hpayload⟩
    obtain ⟨entries, hentries, hencoded⟩ :=
      (PacketHeader.decode_eq_ok_iff (PacketHeader.lt_of_le_maxSize hframe.headerSize_le)).mp
        hheader
    exact ⟨frame, entries, ⟨hframe, hversion, hentries, hencoded, hpayload⟩, hbytes⟩
  · rintro ⟨frame, entries, h, hbytes⟩
    have hsize := PacketHeader.lt_of_le_maxSize h.admitted.headerSize_le
    have hheader := (PacketHeader.decode_eq_ok_iff hsize).mpr
      ⟨entries, h.ofList_entries, h.header_eq⟩
    exact ⟨frame, h.admitted, hbytes, h.version_eq, hheader, h.payloadOf_eq⟩

/-- The frame of a packet without compression. -/
def plain (packet : Packet) : Prepared :=
  ⟨packet.version, none, packet.header.bytes, packet.payload⟩

/-- Opens a frame and writes its packet again. -/
def recode (compressors : Compressors) (bytes : ByteArray) : Except PacketError ByteArray := do
  let packet ← ofFrame compressors maxPayloadSize bytes
  packet.toFrame compressors .default

namespace Frames

variable {frame other : Prepared} {entries others : List (String × String)}

theorem size_bytesWith_le (h : Frames compressors limit packet frame entries) :
    (packet.header.bytesWith entries).size ≤ PacketHeader.maxSize := by
  rw [← h.header_eq]
  exact h.admitted.headerSize_le

/-- The header of no frame of a packet is shorter than the one that is written. -/
theorem size_header_le (h : Frames compressors limit packet frame entries) :
    packet.header.size ≤ frame.header.size := by
  rw [h.header_eq]
  exact PacketHeader.size_le_of_ofList h.ofList_entries

theorem size_payload_le (h : Frames compressors limit packet frame entries) :
    packet.payload.size ≤ limit :=
  size_le_of_payloadOf h.payloadOf_eq h.admitted.bodySize_le

theorem headerSection_eq_iff (h : Frames compressors limit packet frame entries) :
    headerSection frame.bytes = packet.header.bytesWith others ↔ others = entries := by
  rw [Prepared.headerSection_bytes h.admitted, h.header_eq]
  constructor
  · exact fun heq ↦
      PacketHeader.bytesWith_inj (PacketHeader.lt_of_le_maxSize h.size_bytesWith_le) heq.symm
  · rintro rfl
    rfl

/-- What is not compressed is the payload itself. -/
theorem body_eq (h : Frames compressors limit packet frame entries)
    (hflag : FramePrefix.flag frame.compression = 0) : frame.body = packet.payload := by
  have hpayload := h.payloadOf_eq
  rw [payloadOf, if_pos hflag] at hpayload
  exact Except.ok.inj hpayload

/-- The frame that is written of a packet is a frame of it. -/
theorem plain (h : Frames compressors limit packet frame entries) (hlimit : limit < 2 ^ 32) :
    Frames compressors limit packet packet.plain packet.header.metadata.entries := by
  have hheader : packet.header.size ≤ PacketHeader.maxSize :=
    Nat.le_trans h.size_header_le h.admitted.headerSize_le
  have hsent : packet.payload.size < 2 ^ 32 := Nat.lt_of_le_of_lt h.size_payload_le hlimit
  exact ⟨Prepared.admitted (h.version_eq.trans h.admitted.version_eq) rfl hheader
      h.size_payload_le hsent, rfl, TextMap.ofList_entries packet.header.metadata,
    packet.header.bytes_eq, rfl⟩

/-- Frames of one packet differ in their flags, their bodies or their entries. -/
theorem bytes_eq_iff (h : Frames compressors limit packet frame entries)
    (hother : Frames compressors limit packet other others) :
    other.bytes = frame.bytes ↔
      octetAt other.bytes 5 = octetAt frame.bytes 5 ∧
        bodySection other.bytes = bodySection frame.bytes ∧ others = entries := by
  constructor
  · intro heq
    have hsection := hother.headerSection_eq_iff.mpr rfl
    rw [heq] at hsection ⊢
    exact ⟨rfl, rfl, h.headerSection_eq_iff.mp hsection⟩
  · rintro ⟨hflag, hbody, rfl⟩
    rw [other.octetAt_flag, frame.octetAt_flag] at hflag
    rw [Prepared.bodySection_bytes hother.admitted, Prepared.bodySection_bytes h.admitted] at hbody
    apply octets_inj.mp
    rw [Prepared.octets_bytes, Prepared.octets_bytes, hflag, hbody, h.header_eq, hother.header_eq,
      h.admitted.version_eq, hother.admitted.version_eq]

/-- A frame is the one that is written of its packet exactly if it is not compressed and the keys of
its entries increase. -/
theorem bytes_plain_eq_iff (h : Frames compressors limit packet frame entries)
    (hlimit : limit < 2 ^ 32) :
    packet.plain.bytes = frame.bytes ↔
      octetAt frame.bytes 5 = 0 ∧ Entries.Increasing entries := by
  have hplain := h.plain hlimit
  rw [h.bytes_eq_iff hplain, packet.plain.octetAt_flag,
    Prepared.bodySection_bytes hplain.admitted, Prepared.bodySection_bytes h.admitted,
    ← h.ofList_entries, TextMap.entries_ofList_eq_iff]
  constructor
  · rintro ⟨hflag, -, hincreasing⟩
    exact ⟨hflag.symm, hincreasing⟩
  · rintro ⟨hflag, hincreasing⟩
    refine ⟨hflag.symm, ?_, hincreasing⟩
    rw [frame.octetAt_flag] at hflag
    exact (h.body_eq hflag).symm

/-- Frames of one packet differ by compression or by the order and the repetition of their entries.
-/
theorem differ (h : Frames compressors limit packet frame entries)
    (hother : Frames compressors limit packet other others) (hne : other.bytes ≠ frame.bytes) :
    ((octetAt frame.bytes 5 ≠ 0 ∨ octetAt other.bytes 5 ≠ 0) ∧
      (octetAt other.bytes 5 ≠ octetAt frame.bytes 5 ∨
        bodySection other.bytes ≠ bodySection frame.bytes)) ∨
    (others ≠ entries ∧ TextMap.ofList others = TextMap.ofList entries ∧
      ¬ (Entries.Increasing entries ∧ Entries.Increasing others)) := by
  by_cases hentries : others = entries
  · left
    have hparts : ¬ (octetAt other.bytes 5 = octetAt frame.bytes 5 ∧
        bodySection other.bytes = bodySection frame.bytes) :=
      fun ⟨hflag, hbody⟩ ↦ hne ((h.bytes_eq_iff hother).mpr ⟨hflag, hbody, hentries⟩)
    refine ⟨?_, Decidable.not_and_iff_or_not.mp hparts⟩
    rw [← Decidable.not_and_iff_or_not]
    rintro ⟨hframe, hplain⟩
    refine hparts ⟨hplain.trans hframe.symm, ?_⟩
    rw [frame.octetAt_flag] at hframe
    rw [other.octetAt_flag] at hplain
    rw [Prepared.bodySection_bytes hother.admitted, Prepared.bodySection_bytes h.admitted,
      hother.body_eq hplain, h.body_eq hframe]
  · refine .inr ⟨hentries, hother.ofList_entries.trans h.ofList_entries.symm, ?_⟩
    rintro ⟨hframe, hplain⟩
    apply hentries
    rw [← TextMap.entries_ofList_eq_iff.mpr hframe, ← TextMap.entries_ofList_eq_iff.mpr hplain,
      h.ofList_entries, hother.ofList_entries]

end Frames

theorem toFrame_plain {frame : Prepared} {entries : List (String × String)}
    (h : Frames compressors maxPayloadSize packet frame entries) :
    packet.toFrame compressors .default = .ok packet.plain.bytes :=
  toFrame_eq_ok_iff.mpr ⟨_, prepare_plain rfl
    (Nat.le_trans h.size_header_le h.admitted.headerSize_le) h.size_payload_le, rfl⟩

/-! ### The canonical form -/

/-- Assumes: octets that open to a packet. The packet can be written again, and what is written
opens to it, with a header section that is no longer. The header section of the octets holds entries
in exactly one way, and what is written is the octets themselves exactly if their flag is 0 and the
keys of these entries increase. Writing once more changes nothing. Other octets that open to the
packet differ by compression, where one of the two is compressed and their flags or bodies are not
the same, or by entries that leave the same metadata, where a key of one of the two is out of order
or comes again. -/
theorem ofFrame_canonical (compressors : Compressors) {bytes : ByteArray} {packet : Packet}
    (h : ofFrame compressors maxPayloadSize bytes = .ok packet) :
    ∃ frame entries, packet.toFrame compressors .default = .ok frame ∧
      ofFrame compressors maxPayloadSize frame = .ok packet ∧
      (headerSection frame).size ≤ (headerSection bytes).size ∧
      (∀ others, headerSection bytes = packet.header.bytesWith others ↔ others = entries) ∧
      (frame = bytes ↔ octetAt bytes 5 = 0 ∧ Entries.Increasing entries) ∧
      recode compressors bytes = .ok frame ∧ recode compressors frame = .ok frame ∧
      ∀ other others, ofFrame compressors maxPayloadSize other = .ok packet →
        headerSection other = packet.header.bytesWith others → other ≠ bytes →
          ((octetAt bytes 5 ≠ 0 ∨ octetAt other 5 ≠ 0) ∧
            (octetAt other 5 ≠ octetAt bytes 5 ∨ bodySection other ≠ bodySection bytes)) ∨
          (others ≠ entries ∧ TextMap.ofList others = TextMap.ofList entries ∧
            ¬ (Entries.Increasing entries ∧ Entries.Increasing others)) := by
  obtain ⟨frame, entries, hframe, rfl⟩ := ofFrame_eq_ok_iff_frames.mp h
  have hlimit : maxPayloadSize < 2 ^ 32 := by decide
  have hplain := hframe.plain hlimit
  have hwritten := toFrame_plain hframe
  have hopened : ofFrame compressors maxPayloadSize packet.plain.bytes = .ok packet :=
    ofFrame_eq_ok_iff_frames.mpr ⟨_, _, hplain, rfl⟩
  have hrecode : ∀ {bytes}, ofFrame compressors maxPayloadSize bytes = .ok packet →
      recode compressors bytes = .ok packet.plain.bytes := by
    intro bytes hbytes
    simp only [recode, hbytes, hwritten, bind, Except.bind]
  refine ⟨packet.plain.bytes, entries, hwritten, hopened, ?_,
    fun others ↦ hframe.headerSection_eq_iff, hframe.bytes_plain_eq_iff hlimit, hrecode h,
    hrecode hopened, ?_⟩
  · rw [Prepared.headerSection_bytes hplain.admitted, Prepared.headerSection_bytes hframe.admitted]
    exact Nat.le_trans (Nat.le_of_eq packet.header.size_bytes) hframe.size_header_le
  · intro other others hother hothers hne
    obtain ⟨found, listed, hfound, rfl⟩ := ofFrame_eq_ok_iff_frames.mp hother
    obtain rfl := hfound.headerSection_eq_iff.mp hothers
    exact hframe.differ hfound hne

/-! ### A frame that is not canonical -/

/-- Entries out of order, one of which replaces another. -/
def relisted : List (String × String) := [("b", "1"), ("a", ""), ("b", "2")]

/-- A packet of no octets with the metadata that `relisted` leaves. -/
def labelled : Packet :=
  .current { PacketHeader.ofKind .binary with metadata := .ofList relisted } .empty

theorem frames_labelled : Frames .standard maxPayloadSize labelled
    ⟨FramePrefix.version, none, labelled.header.bytesWith relisted, .empty⟩ relisted :=
  ⟨⟨⟨by decide +kernel, by decide +kernel, by decide, by decide⟩, rfl⟩, rfl, rfl, rfl, rfl⟩

/-- A frame with entries out of order has another canonical form. -/
theorem ofFrame_canonical_labelled :
    ∃ bytes frame, ofFrame .standard maxPayloadSize bytes = .ok labelled ∧
      recode .standard bytes = .ok frame ∧ frame ≠ bytes ∧ recode .standard frame = .ok frame := by
  have hbytes := ofFrame_eq_ok_iff_frames.mpr ⟨_, _, frames_labelled, rfl⟩
  obtain ⟨frame, entries, -, -, -, hentries, hcanonical, hrecode, hagain, -⟩ :=
    ofFrame_canonical .standard hbytes
  refine ⟨_, frame, hbytes, hrecode, fun heq ↦ ?_, hagain⟩
  obtain rfl := (hentries relisted).mp (frames_labelled.headerSection_eq_iff.mpr rfl)
  have hincreasing := (hcanonical.mp heq).2
  rw [← Entries.sorted_iff_increasing] at hincreasing
  exact absurd hincreasing (by decide)

end Packet

end TypedPacket
