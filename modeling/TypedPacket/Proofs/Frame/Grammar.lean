import TypedPacket.Proofs.Frame.Parts

/-!
# The grammar of frames

Octets open to a packet exactly if they are spelled as a frame: the magic, the version, a flag, two
sizes with their most significant octet first, and as many octets of a header and of a body as the
sizes say (`Packet.Spelled`). All other octets are refused for the first of nine checks that they
fail (`Packet.Check`, `Packet.firstFailing?`). `Packet.ofFrame_grammar` says both.
-/

set_option autoImplicit false
set_option relaxedAutoImplicit false

namespace TypedPacket

namespace Packet

variable {compressors : Compressors} {limit : Nat} {bytes : ByteArray}

/-! ### The grammar -/

/-- Octets are spelled as a frame with a flag, a header and a body. -/
structure Spelled (bytes : ByteArray) (flag : UInt8) (header body : ByteArray) : Prop where
  octets_eq : octets bytes = [0x56, 0x41, 0x50, 0x4B] ++ [1] ++ [flag] ++
    bigEndian 4 header.size ++ bigEndian 4 body.size ++ octets header ++ octets body
  flag_mem : flag = 0 ∨ flag = 1 ∨ flag = 2
  le_headerSize : 1 ≤ header.size
  headerSize_le : header.size ≤ 65536
  bodySize_lt : body.size < 2 ^ 32

theorem Prepared.spelled {frame : Prepared} (hframe : frame.Admitted limit) :
    Spelled frame.bytes (FramePrefix.flag frame.compression) frame.header frame.body := by
  have hoctets := frame.octets_bytes
  rw [hframe.version_eq, FramePrefix.version] at hoctets
  exact ⟨hoctets, FramePrefix.flag_mem _, hframe.headerSize_pos, hframe.headerSize_le,
    hframe.bodySize_lt⟩

theorem Spelled.exists_prepared {flag : UInt8} {header body : ByteArray}
    (hspelled : Spelled bytes flag header body) (hbody : body.size ≤ limit) :
    ∃ compression, FramePrefix.flag compression = flag ∧
      bytes = Prepared.bytes ⟨FramePrefix.version, compression, header, body⟩ ∧
      Prepared.Admitted limit ⟨FramePrefix.version, compression, header, body⟩ := by
  obtain ⟨compression, hflag⟩ := FramePrefix.exists_flag_eq hspelled.flag_mem
  refine ⟨compression, hflag, ?_, ?_⟩
  · apply octets_inj.mp
    rw [hspelled.octets_eq, Prepared.octets_bytes, hflag, FramePrefix.version]
  · exact ⟨⟨hspelled.le_headerSize, hspelled.headerSize_le, hbody, hspelled.bodySize_lt⟩, rfl⟩

/-! ### The checks -/

/-- Four octets as a number, most significant first. -/
def numberAt (bytes : ByteArray) (index : Nat) : Nat :=
  ofBigEndian [octetAt bytes index, octetAt bytes (index + 1), octetAt bytes (index + 2),
    octetAt bytes (index + 3)]

/-- The octets that should be an encoded header. -/
def headerSection (bytes : ByteArray) : ByteArray := bytes.extract 14 (14 + numberAt bytes 6)

/-- The octets behind the header. -/
def bodySection (bytes : ByteArray) : ByteArray :=
  bytes.extract (14 + numberAt bytes 6) bytes.size

/-- A word of four octets is found again behind other octets, reduced to its width. -/
theorem numberAt_bigEndian {n index : Nat} {front back : List UInt8}
    (hbytes : octets bytes = front ++ bigEndian 4 n ++ back) (hindex : front.length = index) :
    numberAt bytes index = n % 2 ^ 32 := by
  subst hindex
  obtain ⟨a, b, c, d, hword⟩ := FramePrefix.bigEndian_four n
  have hnumber : numberAt bytes front.length = ofBigEndian [a, b, c, d] := by
    simp [numberAt, octetAt_eq_getD, hbytes, hword]
  rw [hnumber, ← hword, ofBigEndian_bigEndian]

namespace Prepared

variable (frame : Prepared)

theorem numberAt_header : numberAt frame.bytes 6 = frame.header.size % 2 ^ 32 := by
  have hoctets : octets frame.bytes =
      ([0x56, 0x41, 0x50, 0x4B] ++ [frame.version] ++ [FramePrefix.flag frame.compression]) ++
        bigEndian 4 frame.header.size ++
        (bigEndian 4 frame.body.size ++ octets frame.header ++ octets frame.body) := by
    simp only [frame.octets_bytes, List.append_assoc]
  exact numberAt_bigEndian hoctets rfl

theorem numberAt_body : numberAt frame.bytes 10 = frame.body.size % 2 ^ 32 := by
  have hoctets : octets frame.bytes =
      ([0x56, 0x41, 0x50, 0x4B] ++ [frame.version] ++ [FramePrefix.flag frame.compression] ++
        bigEndian 4 frame.header.size) ++ bigEndian 4 frame.body.size ++
        (octets frame.header ++ octets frame.body) := by
    simp only [frame.octets_bytes, List.append_assoc]
  exact numberAt_bigEndian hoctets rfl

/-! A header that fits in its field tells where the body starts. -/

variable {frame : Prepared}

theorem numberAt_header_of_lt (hheader : frame.header.size < 2 ^ 32) :
    numberAt frame.bytes 6 = frame.header.size := by
  rw [frame.numberAt_header, Nat.mod_eq_of_lt hheader]

theorem headerSection_of_lt (hheader : frame.header.size < 2 ^ 32) :
    headerSection frame.bytes = frame.header := by
  rw [headerSection, numberAt_header_of_lt hheader]
  exact frame.extract_header

theorem bodySection_of_lt (hheader : frame.header.size < 2 ^ 32) :
    bodySection frame.bytes = frame.body := by
  rw [bodySection, numberAt_header_of_lt hheader]
  exact frame.extract_body

theorem headerSection_bytes (hframe : frame.Admitted limit) :
    headerSection frame.bytes = frame.header :=
  headerSection_of_lt hframe.headerSize_lt

theorem bodySection_bytes (hframe : frame.Admitted limit) :
    bodySection frame.bytes = frame.body :=
  bodySection_of_lt hframe.headerSize_lt

end Prepared

/-- What is checked of octets that should be a frame. -/
inductive Check
  | prefixSize | magic | version | flag | headerSize | bodySize | frameSize | header | body
  deriving DecidableEq, Repr

namespace Check

/-- The checks of a prefix that is there, in their order. -/
def ofPrefix : List Check := [.magic, .version, .flag, .headerSize, .bodySize]

/-- The checks of what a prefix announces, in their order. -/
def ofParts : List Check := [.frameSize, .header, .body]

/-- All checks in their order. -/
def order : List Check := .prefixSize :: (ofPrefix ++ ofParts)

def passes (compressors : Compressors) (limit : Nat) (bytes : ByteArray) : Check → Bool
  | .prefixSize => 14 ≤ bytes.size
  | .magic =>
    [octetAt bytes 0, octetAt bytes 1, octetAt bytes 2, octetAt bytes 3] = [0x56, 0x41, 0x50, 0x4B]
  | .version => octetAt bytes 4 = 1
  | .flag => octetAt bytes 5 = 0 ∨ octetAt bytes 5 = 1 ∨ octetAt bytes 5 = 2
  | .headerSize => 1 ≤ numberAt bytes 6 ∧ numberAt bytes 6 ≤ 65536
  | .bodySize => numberAt bytes 10 ≤ limit
  | .frameSize => bytes.size = 14 + numberAt bytes 6 + numberAt bytes 10
  | .header => (PacketHeader.decode (headerSection bytes)).isOk
  | .body => (payloadOf compressors limit (octetAt bytes 5) (bodySection bytes)).isOk

/-- The error for octets that fail a check. -/
def error (bytes : ByteArray) : Check → PacketError
  | .version => .unsupportedVersion (octetAt bytes 4)
  | .bodySize => .oversized (numberAt bytes 10)
  | .body => .decompressionFailure
  | _ => .invalidHeader

end Check

/-- The first of some checks that octets fail. -/
def firstFailing? (compressors : Compressors) (limit : Nat) (bytes : ByteArray)
    (checks : List Check) : Option Check :=
  checks.find? fun check ↦ !check.passes compressors limit bytes

/-- The fields of a prefix are read at their places. -/
theorem read_fields (limit : Nat) (bytes : ByteArray) :
    FramePrefix.read limit
        [octetAt bytes 0, octetAt bytes 1, octetAt bytes 2, octetAt bytes 3, octetAt bytes 4,
          octetAt bytes 5, octetAt bytes 6, octetAt bytes 7, octetAt bytes 8, octetAt bytes 9,
          octetAt bytes 10, octetAt bytes 11, octetAt bytes 12, octetAt bytes 13] =
      if [octetAt bytes 0, octetAt bytes 1, octetAt bytes 2, octetAt bytes 3] ≠ FramePrefix.magic
        then .error .invalidHeader
      else if octetAt bytes 4 ≠ FramePrefix.version
        then .error (.unsupportedVersion (octetAt bytes 4))
      else match FramePrefix.ofFlag? (octetAt bytes 5) with
        | none => .error .invalidHeader
        | some compression =>
          if numberAt bytes 6 = 0 ∨ PacketHeader.maxSize < numberAt bytes 6
            then .error .invalidHeader
          else if limit < numberAt bytes 10 then .error (.oversized (numberAt bytes 10))
          else .ok ⟨compression, numberAt bytes 6, numberAt bytes 10⟩ := rfl

/-- A prefix that is there is refused for the first check that it fails, and read if it fails none.
-/
theorem parse_checked (compressors : Compressors) (limit : Nat) (hbytes : 14 ≤ bytes.size) :
    match firstFailing? compressors limit bytes Check.ofPrefix with
    | some check => FramePrefix.parse limit bytes = .error (check.error bytes)
    | none => ∃ compression, FramePrefix.flag compression = octetAt bytes 5 ∧
        FramePrefix.parse limit bytes =
          .ok (some ⟨compression, numberAt bytes 6, numberAt bytes 10⟩) := by
  have hlong : ¬ bytes.size < FramePrefix.size := Nat.not_lt.mpr hbytes
  rw [FramePrefix.parse, if_neg hlong, FramePrefix.octets_extract_size hbytes, read_fields,
    FramePrefix.magic, FramePrefix.version]
  unfold firstFailing? Check.ofPrefix
  by_cases hmagic : [octetAt bytes 0, octetAt bytes 1, octetAt bytes 2, octetAt bytes 3] =
      [0x56, 0x41, 0x50, 0x4B]
  · by_cases hversion : octetAt bytes 4 = 1
    · by_cases hflag : octetAt bytes 5 = 0 ∨ octetAt bytes 5 = 1 ∨ octetAt bytes 5 = 2
      · obtain ⟨compression, hcompression⟩ := FramePrefix.exists_flag_eq hflag
        have hfound := FramePrefix.ofFlag?_flag compression
        rw [hcompression] at hfound
        by_cases hheader : 1 ≤ numberAt bytes 6 ∧ numberAt bytes 6 ≤ 65536
        · have hrange : ¬ (numberAt bytes 6 = 0 ∨ PacketHeader.maxSize < numberAt bytes 6) := by
            rw [PacketHeader.maxSize]
            omega
          by_cases hbody : numberAt bytes 10 ≤ limit
          · simpa [Check.passes, Except.map, hmagic, hversion, hflag, hfound, hheader, hrange,
              hbody, Nat.not_lt.mpr hbody] using hcompression
          · simp [Check.passes, Check.error, Except.map, hmagic, hversion, hflag, hfound, hheader,
              hrange, hbody, Nat.lt_of_not_le hbody]
        · have hrange : numberAt bytes 6 = 0 ∨ PacketHeader.maxSize < numberAt bytes 6 := by
            rw [PacketHeader.maxSize]
            omega
          simp [Check.passes, Check.error, Except.map, hmagic, hversion, hflag, hfound, hheader,
            hrange]
      · have hfound := FramePrefix.ofFlag?_eq_none hflag
        simp [Check.passes, Check.error, Except.map, hmagic, hversion, hflag, hfound]
    · simp [Check.passes, Check.error, Except.map, hmagic, hversion]
  · simp [Check.passes, Check.error, Except.map, hmagic]

/-- Octets whose prefix is read are refused for the first check that its parts fail, and opened if
they fail none. -/
theorem ofFrame_parts {compression : Option CompressionKind}
    (hflag : FramePrefix.flag compression = octetAt bytes 5)
    (hparse : FramePrefix.parse limit bytes =
      .ok (some ⟨compression, numberAt bytes 6, numberAt bytes 10⟩)) :
    match firstFailing? compressors limit bytes Check.ofParts with
    | some check => ofFrame compressors limit bytes = .error (check.error bytes)
    | none => ∃ packet, ofFrame compressors limit bytes = .ok packet := by
  unfold firstFailing? Check.ofParts
  by_cases hsize : bytes.size = 14 + numberAt bytes 6 + numberAt bytes 10
  · have hopened : ofFrame compressors limit bytes = opened compressors limit (octetAt bytes 4)
        (octetAt bytes 5) (headerSection bytes) (bodySection bytes) := by
      rw [ofFrame_of_parse hparse hsize, hflag]
      rfl
    rw [hopened, opened]
    cases hheader : PacketHeader.decode (headerSection bytes) with
    | error error =>
      obtain rfl := PacketHeader.eq_invalidHeader_of_decode hheader
      simp [Check.passes, Check.error, Except.isOk, Except.toBool, hsize, hheader, bind,
        Except.bind]
    | ok header =>
      cases hpayload : payloadOf compressors limit (octetAt bytes 5) (bodySection bytes) with
      | error error =>
        obtain rfl := eq_decompressionFailure_of_payloadOf hpayload
        simp [Check.passes, Check.error, Except.isOk, Except.toBool, hsize, hheader, hpayload,
          bind, Except.bind]
      | ok payload =>
        simp [Check.passes, Except.isOk, Except.toBool, hsize, hheader, hpayload, bind,
          Except.bind]
  · simp [Check.passes, Check.error, ofFrame, hparse, FramePrefix.frameSize, FramePrefix.size,
      hsize, bind, Except.bind]

/-- Octets are refused for the first check that they fail, and opened if they fail none. -/
theorem ofFrame_checked (compressors : Compressors) (limit : Nat) (bytes : ByteArray) :
    match firstFailing? compressors limit bytes Check.order with
    | some check => ofFrame compressors limit bytes = .error (check.error bytes)
    | none => ∃ packet, ofFrame compressors limit bytes = .ok packet := by
  by_cases hprefix : 14 ≤ bytes.size
  · have hsplit : firstFailing? compressors limit bytes Check.order =
        (firstFailing? compressors limit bytes Check.ofPrefix).or
          (firstFailing? compressors limit bytes Check.ofParts) := by
      simp [firstFailing?, Check.order, Check.passes, hprefix, List.find?_append]
    have hchecked := parse_checked compressors limit hprefix
    cases hfirst : firstFailing? compressors limit bytes Check.ofPrefix with
    | some check =>
      rw [hfirst] at hchecked
      simp only [hsplit, hfirst, Option.some_or, ofFrame, hchecked, bind, Except.bind]
    | none =>
      rw [hfirst] at hchecked
      obtain ⟨compression, hflag, hparse⟩ := hchecked
      rw [hsplit, hfirst, Option.none_or]
      exact ofFrame_parts hflag hparse
  · have hparse : FramePrefix.parse limit bytes = .ok none :=
      FramePrefix.parse_eq_none_iff.mpr (Nat.lt_of_not_le hprefix)
    simp [firstFailing?, Check.order, Check.passes, Check.error, hprefix, ofFrame, hparse, bind,
      Except.bind]

theorem ofFrame_eq_error_iff {error : PacketError} :
    ofFrame compressors limit bytes = .error error ↔
      ∃ check, firstFailing? compressors limit bytes Check.order = some check ∧
        error = check.error bytes := by
  have hchecked := ofFrame_checked compressors limit bytes
  cases hfirst : firstFailing? compressors limit bytes Check.order with
  | some check =>
    rw [hfirst] at hchecked
    simp only [hchecked, Except.error.injEq, Option.some.injEq, exists_eq_left', eq_comm]
  | none =>
    rw [hfirst] at hchecked
    obtain ⟨packet, hopened⟩ := hchecked
    simp only [hopened, reduceCtorEq, false_and, exists_false]

/-- Frames are exactly what the grammar says, and all other octets are refused for the first check
that they fail. A frame opens to the packet of its version, of its header and of the payload that its
body holds, within the limit. -/
theorem ofFrame_grammar (compressors : Compressors) (limit : Nat) (bytes : ByteArray) :
    (∀ packet, ofFrame compressors limit bytes = .ok packet ↔
      ∃ flag header body, Spelled bytes flag header body ∧ body.size ≤ limit ∧
        PacketHeader.decode header = .ok packet.header ∧
        payloadOf compressors limit flag body = .ok packet.payload ∧ packet.version = 1) ∧
    ∀ error, ofFrame compressors limit bytes = .error error ↔
      ∃ check, firstFailing? compressors limit bytes Check.order = some check ∧
        error = check.error bytes := by
  refine ⟨fun packet ↦ ⟨fun h ↦ ?_, ?_⟩, fun error ↦ ofFrame_eq_error_iff⟩
  · obtain ⟨frame, hframe, rfl, hversion, hheader, hpayload⟩ := ofFrame_eq_ok_iff.mp h
    exact ⟨_, _, _, Prepared.spelled hframe, hframe.bodySize_le, hheader, hpayload,
      hversion.trans hframe.version_eq⟩
  · rintro ⟨flag, header, body, hspelled, hlimit, hheader, hpayload, hversion⟩
    obtain ⟨compression, rfl, rfl, hframe⟩ := hspelled.exists_prepared hlimit
    exact ofFrame_eq_ok_iff.mpr ⟨_, hframe, rfl, hversion, hheader, hpayload⟩

/-- Of a version and a flag that are both unknown the version is told. -/
example : firstFailing? .standard maxPayloadSize
    [0x56, 0x41, 0x50, 0x4B, 2, 9, 0, 0, 0, 1, 0, 0, 0, 0].toByteArray Check.order =
      some .version := by
  decide +kernel

end Packet

end TypedPacket
