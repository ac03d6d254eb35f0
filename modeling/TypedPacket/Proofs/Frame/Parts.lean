import TypedPacket.Proofs.Compression
import TypedPacket.Proofs.Frame.Prefix

/-!
# The parts of a frame

A frame is its prefix, its encoded header and its body, one after another, and the prefix tells
where each stands (`Packet.Prepared`). Octets whose prefix is read and that are as many as it
announces are a frame (`Packet.exists_prepared`), and open to the packet of its version, of its
header and of the payload that the body holds (`Packet.ofFrame_prepared`); nothing else opens
(`Packet.ofFrame_eq_ok_iff`).
-/

set_option autoImplicit false
set_option relaxedAutoImplicit false

namespace TypedPacket

namespace Packet

variable {compressors : Compressors} {limit : Nat} {bytes : ByteArray} {packet : Packet}

/-! ### A frame and its prefix -/

/-- The prefix of a frame. -/
def Prepared.announced (frame : Prepared) : FramePrefix :=
  ⟨frame.compression, frame.header.size, frame.body.size⟩

/-- A frame of the version that is read, with a prefix that a reader with the limit accepts. -/
structure Prepared.Admitted (limit : Nat) (frame : Prepared) : Prop extends
    FramePrefix.Admitted limit frame.announced where
  version_eq : frame.version = FramePrefix.version

theorem Prepared.bytes_eq (frame : Prepared) :
    frame.bytes =
      (frame.announced.write frame.version).toByteArray ++ (frame.header ++ frame.body) :=
  ByteArray.append_assoc

theorem Prepared.size_write (frame : Prepared) :
    (frame.announced.write frame.version).toByteArray.size = FramePrefix.size := by
  rw [List.size_toByteArray, FramePrefix.length_write]

theorem Prepared.size_bytes (frame : Prepared) :
    frame.bytes.size = frame.announced.frameSize := by
  rw [frame.bytes_eq, ByteArray.size_append, ByteArray.size_append, frame.size_write]
  simp only [FramePrefix.frameSize, announced]
  omega

theorem Prepared.parse_bytes {frame : Prepared} (hframe : frame.Admitted limit) :
    FramePrefix.parse limit frame.bytes = .ok (some frame.announced) := by
  rw [frame.bytes_eq, hframe.version_eq]
  exact FramePrefix.parse_write_append hframe.toAdmitted _

theorem Prepared.extract_header (frame : Prepared) :
    frame.bytes.extract FramePrefix.size (FramePrefix.size + frame.header.size) =
      frame.header := by
  have hheader := ByteArray.extract_append_size_add'
    (a := (frame.announced.write frame.version).toByteArray) (b := frame.header ++ frame.body)
    (i := 0) (j := frame.header.size) frame.size_write.symm
  rw [Nat.add_zero, ← frame.bytes_eq] at hheader
  rw [hheader, ByteArray.extract_append_eq_left rfl]

theorem Prepared.extract_body (frame : Prepared) :
    frame.bytes.extract (FramePrefix.size + frame.header.size) frame.bytes.size = frame.body := by
  have hfront : FramePrefix.size + frame.header.size =
      ((frame.announced.write frame.version).toByteArray ++ frame.header).size := by
    rw [ByteArray.size_append, frame.size_write]
  rw [hfront]
  exact ByteArray.extract_append_eq_right rfl ByteArray.size_append

theorem Prepared.octets_bytes (frame : Prepared) :
    octets frame.bytes = [0x56, 0x41, 0x50, 0x4B] ++ [frame.version] ++
      [FramePrefix.flag frame.compression] ++ bigEndian 4 frame.header.size ++
      bigEndian 4 frame.body.size ++ octets frame.header ++ octets frame.body := by
  rw [bytes, octets_append, octets_append, octets_toByteArray]
  rfl

theorem Prepared.octetAt_version (frame : Prepared) :
    octetAt frame.bytes 4 = frame.version := by
  rw [octetAt_eq_getD, frame.octets_bytes]
  rfl

theorem Prepared.octetAt_flag (frame : Prepared) :
    octetAt frame.bytes 5 = FramePrefix.flag frame.compression := by
  rw [octetAt_eq_getD, frame.octets_bytes]
  rfl

/-- A header that is small enough and a body within the limit are announced by a prefix that is
read, if its version is. -/
theorem Prepared.admitted {frame : Prepared} {header : PacketHeader}
    (hversion : frame.version = FramePrefix.version) (hencoded : frame.header = header.bytes)
    (hheader : header.size ≤ PacketHeader.maxSize) (hlimit : frame.body.size ≤ limit)
    (hsent : frame.body.size < 2 ^ 32) : frame.Admitted limit := by
  have hsize : frame.header.size = header.size := by rw [hencoded, header.size_bytes]
  have hpos : 0 < header.size := Nat.lt_of_lt_of_le (by decide) header.le_size
  exact ⟨⟨Nat.lt_of_lt_of_eq hpos hsize.symm, Nat.le_trans (Nat.le_of_eq hsize) hheader, hlimit,
    hsent⟩, hversion⟩

/-! ### Opening the parts of a frame -/

/-- The payload that a body holds under a flag: the body itself under 0, what it expands to as LZ4
under 1 and as Zstandard under 2. -/
def payloadOf (compressors : Compressors) (limit : Nat) (flag : UInt8) (body : ByteArray) :
    Except PacketError ByteArray :=
  if flag = 0 then .ok body
  else compressors.expandWithin (if flag = 1 then .lz4 else .zstd) limit body

/-- The packet of a version, an encoded header and a body under a flag. -/
def opened (compressors : Compressors) (limit : Nat) (version flag : UInt8)
    (encoded body : ByteArray) : Except PacketError Packet := do
  let header ← PacketHeader.decode encoded
  let payload ← payloadOf compressors limit flag body
  .ok ⟨version, header, payload⟩

theorem payloadOf_flag (compressors : Compressors) (limit : Nat)
    (compression : Option CompressionKind) (body : ByteArray) :
    payloadOf compressors limit (FramePrefix.flag compression) body =
      match compression with
      | none => .ok body
      | some kind => compressors.expandWithin kind limit body := by
  rcases compression with _ | _ | _ <;> rfl

theorem eq_decompressionFailure_of_payloadOf {flag : UInt8} {body : ByteArray}
    {error : PacketError} (h : payloadOf compressors limit flag body = .error error) :
    error = .decompressionFailure := by
  unfold payloadOf at h
  split at h
  · cases h
  · exact Compressors.eq_decompressionFailure_of_expandWithin h

/-- A payload is within the limit if its body is. -/
theorem size_le_of_payloadOf {flag : UInt8} {body payload : ByteArray}
    (h : payloadOf compressors limit flag body = .ok payload) (hbody : body.size ≤ limit) :
    payload.size ≤ limit := by
  unfold payloadOf at h
  split at h
  · obtain rfl := Except.ok.inj h
    exact hbody
  · exact Compressors.size_le_of_expandWithin h

theorem opened_eq_ok_iff {version flag : UInt8} {encoded body : ByteArray} :
    opened compressors limit version flag encoded body = .ok packet ↔
      packet.version = version ∧ PacketHeader.decode encoded = .ok packet.header ∧
        payloadOf compressors limit flag body = .ok packet.payload := by
  simp only [opened, bind_eq_ok_iff, Except.ok.injEq]
  constructor
  · rintro ⟨header, hheader, payload, hpayload, rfl⟩
    exact ⟨rfl, hheader, hpayload⟩
  · rintro ⟨rfl, hheader, hpayload⟩
    exact ⟨packet.header, hheader, packet.payload, hpayload, rfl⟩

/-- As many octets as their prefix announces are opened at the places that it tells. -/
theorem ofFrame_of_parse {pre : FramePrefix}
    (hparse : FramePrefix.parse limit bytes = .ok (some pre))
    (hsize : bytes.size = pre.frameSize) :
    ofFrame compressors limit bytes =
      opened compressors limit (octetAt bytes 4) (FramePrefix.flag pre.compression)
        (bytes.extract FramePrefix.size (FramePrefix.size + pre.headerSize))
        (bytes.extract (FramePrefix.size + pre.headerSize) bytes.size) := by
  have hwhole : ¬ bytes.size ≠ pre.frameSize := not_not_intro hsize
  simp only [ofFrame, opened, hparse, hwhole, payloadOf_flag, bind, Except.bind, if_false]
  cases PacketHeader.decode
      (bytes.extract FramePrefix.size (FramePrefix.size + pre.headerSize)) with
  | error error => rfl
  | ok header => cases pre.compression <;> rfl

/-- As many octets as their prefix announces are a frame that is admitted. -/
theorem exists_prepared {pre : FramePrefix}
    (hparse : FramePrefix.parse limit bytes = .ok (some pre))
    (hsize : bytes.size = pre.frameSize) :
    ∃ frame : Prepared, frame.Admitted limit ∧ bytes = frame.bytes := by
  obtain ⟨hadmitted, rest, rfl⟩ := FramePrefix.parse_eq_some_iff.mp hparse
  have hrest : rest.size = pre.headerSize + pre.bodySize := by
    rw [ByteArray.size_append, List.size_toByteArray, FramePrefix.length_write,
      FramePrefix.frameSize] at hsize
    omega
  have hheader : (rest.extract 0 pre.headerSize).size = pre.headerSize := by
    rw [ByteArray.size_extract]
    omega
  have hbody : (rest.extract pre.headerSize rest.size).size = pre.bodySize := by
    rw [ByteArray.size_extract]
    omega
  have hparts : rest = rest.extract 0 pre.headerSize ++ rest.extract pre.headerSize rest.size := by
    rw [← ByteArray.extract_eq_extract_append_extract _ (Nat.zero_le _) (by omega),
      ByteArray.extract_zero_size]
  let frame : Prepared := ⟨FramePrefix.version, pre.compression, rest.extract 0 pre.headerSize,
    rest.extract pre.headerSize rest.size⟩
  have hannounced : frame.announced = pre := by
    simp only [Prepared.announced, frame, hheader, hbody]
  refine ⟨frame, ⟨hannounced.symm ▸ hadmitted, rfl⟩, ?_⟩
  rw [frame.bytes_eq, hannounced, ← hparts]

/-- A frame whose prefix is read opens to what its parts open to. -/
theorem ofFrame_prepared {frame : Prepared} (hframe : frame.Admitted limit) :
    ofFrame compressors limit frame.bytes =
      opened compressors limit frame.version (FramePrefix.flag frame.compression) frame.header
        frame.body := by
  have hheader : frame.bytes.extract FramePrefix.size
      (FramePrefix.size + frame.announced.headerSize) = frame.header := frame.extract_header
  have hbody : frame.bytes.extract (FramePrefix.size + frame.announced.headerSize)
      frame.bytes.size = frame.body := frame.extract_body
  rw [ofFrame_of_parse (Prepared.parse_bytes hframe) frame.size_bytes, hheader, hbody,
    frame.octetAt_version, Prepared.announced]

/-- Octets are refused for their prefix or for their number, or are a frame, which is opened. -/
theorem ofFrame_cases (compressors : Compressors) (limit : Nat) (bytes : ByteArray) :
    (∃ error, FramePrefix.parse limit bytes = .error error ∧
      ofFrame compressors limit bytes = .error error) ∨
    ofFrame compressors limit bytes = .error .invalidHeader ∨
    ∃ frame : Prepared, frame.Admitted limit ∧ bytes = frame.bytes ∧
      ofFrame compressors limit bytes =
        opened compressors limit frame.version (FramePrefix.flag frame.compression) frame.header
          frame.body := by
  cases hparse : FramePrefix.parse limit bytes with
  | error error =>
    refine .inl ⟨error, rfl, ?_⟩
    simp only [ofFrame, hparse, bind, Except.bind]
  | ok found =>
    cases found with
    | none =>
      refine .inr (.inl ?_)
      simp only [ofFrame, hparse, bind, Except.bind]
    | some pre =>
      by_cases hsize : bytes.size = pre.frameSize
      · obtain ⟨frame, hadmitted, rfl⟩ := exists_prepared hparse hsize
        exact .inr (.inr ⟨frame, hadmitted, rfl, ofFrame_prepared hadmitted⟩)
      · refine .inr (.inl ?_)
        simp only [ofFrame, hparse, ne_eq, hsize, not_false_eq_true, if_true, bind, Except.bind]

theorem ofFrame_eq_ok_iff :
    ofFrame compressors limit bytes = .ok packet ↔
      ∃ frame : Prepared, frame.Admitted limit ∧ bytes = frame.bytes ∧
        packet.version = frame.version ∧
        PacketHeader.decode frame.header = .ok packet.header ∧
        payloadOf compressors limit (FramePrefix.flag frame.compression) frame.body =
          .ok packet.payload := by
  constructor
  · intro h
    rcases ofFrame_cases compressors limit bytes with
      ⟨error, -, herror⟩ | herror | ⟨frame, hframe, hbytes, hopened⟩
    · cases herror.symm.trans h
    · cases herror.symm.trans h
    · exact ⟨frame, hframe, hbytes, opened_eq_ok_iff.mp (hopened.symm.trans h)⟩
  · rintro ⟨frame, hframe, rfl, hparts⟩
    rw [ofFrame_prepared hframe]
    exact opened_eq_ok_iff.mpr hparts

end Packet

end TypedPacket
