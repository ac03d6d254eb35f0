import TypedPacket.Proofs.Frame.Parts

/-!
# Frames read back as the packets they were made of

What goes on the wire behind the header is the payload, or what a compressor made of it if that is
smaller (`Packet.Sends`, `Packet.Prepares`). A frame with a header that is small enough and a body
within the limit is opened into its parts (`Packet.ofFrame_bytes`); with compressors that restore
what they compress, the parts are those of the packet exactly if its payload is within the limit
(`Packet.ofFrame_of_prepare`).

The main statement is `Packet.ofFrame_toFrame`: a payload within the limits of both ends survives
the wire under any options, and the frame is never longer than without compression.
-/

set_option autoImplicit false
set_option relaxedAutoImplicit false

namespace TypedPacket

namespace Packet

variable {compressors : Compressors} {options : WireOptions} {packet : Packet}

/-! ### What is prepared for the wire -/

/-- The body that stands for a payload on the wire, and how it is compressed. -/
inductive Sends (compressors : Compressors) (options : WireOptions) (payload : ByteArray) :
    Option CompressionKind → ByteArray → Prop
  | plain : Sends compressors options payload none payload
  | compressed (kind : CompressionKind) (small : ByteArray) (hkind : kind ∈ options.compression)
      (hsmall : compressors.compress kind payload = .ok small)
      (hshorter : small.size < payload.size) : Sends compressors options payload (some kind) small

theorem Sends.size_le {payload sent : ByteArray} {compression : Option CompressionKind}
    (h : Sends compressors options payload compression sent) : sent.size ≤ payload.size := by
  cases h with
  | plain => exact Nat.le_refl _
  | compressed kind _ hkind hsmall hshorter => exact Nat.le_of_lt hshorter

theorem sends_of_body {compression : Option CompressionKind} {sent : ByteArray}
    (h : packet.body compressors options = .ok (compression, sent)) :
    Sends compressors options packet.payload compression sent := by
  unfold body at h
  cases hcompression : options.compression with
  | none =>
    simp only [hcompression, Except.ok.injEq, Prod.mk.injEq] at h
    obtain ⟨rfl, rfl⟩ := h
    exact .plain
  | some kind =>
    simp only [hcompression] at h
    obtain ⟨chosen, hchosen, h⟩ := bind_eq_ok_iff.mp h
    cases chosen with
    | none =>
      simp only [Except.ok.injEq, Prod.mk.injEq] at h
      obtain ⟨rfl, rfl⟩ := h
      exact .plain
    | some small =>
      simp only [Except.ok.injEq, Prod.mk.injEq] at h
      obtain ⟨rfl, rfl⟩ := h
      obtain ⟨hsmall, hshorter⟩ := Compressors.compressIfBeneficial_some hchosen
      exact .compressed kind small hcompression hsmall hshorter

theorem body_isOk (hcompress : ∀ kind ∈ options.compression,
      ∃ small, compressors.compress kind packet.payload = .ok small) :
    ∃ compression sent, packet.body compressors options = .ok (compression, sent) := by
  unfold body
  cases hcompression : options.compression with
  | none => exact ⟨none, packet.payload, rfl⟩
  | some kind =>
    obtain ⟨small, hsmall⟩ := hcompress kind hcompression
    obtain ⟨chosen, hchosen⟩ := Compressors.compressIfBeneficial_isOk options.threshold hsmall
    cases chosen with
    | none => exact ⟨none, packet.payload, by simp only [hchosen, bind, Except.bind]⟩
    | some small => exact ⟨some kind, small, by simp only [hchosen, bind, Except.bind]⟩

/-- What a packet is written as: it has the version of the packet, its encodable header, a body that
stands for the payload, and no more of a body than the limit. -/
structure Prepares (compressors : Compressors) (options : WireOptions) (packet : Packet)
    (prepared : Prepared) : Prop where
  version_eq : prepared.version = packet.version
  size_header_le : packet.header.size ≤ PacketHeader.maxSize
  header_eq : prepared.header = packet.header.bytes
  sends : Sends compressors options packet.payload prepared.compression prepared.body
  size_body_le : prepared.body.size ≤ options.maxPayloadSize

theorem prepares_of_prepare {prepared : Prepared}
    (h : packet.prepare compressors options = .ok prepared) :
    Prepares compressors options packet prepared := by
  unfold prepare at h
  obtain ⟨header, hencode, h⟩ := bind_eq_ok_iff.mp h
  obtain ⟨hsize, rfl⟩ := PacketHeader.encode_eq_ok_iff.mp hencode
  obtain ⟨⟨compression, sent⟩, hbody, h⟩ := bind_eq_ok_iff.mp h
  dsimp only at h
  split at h
  · cases h
  · rename_i hwithin
    obtain rfl := Except.ok.inj h
    exact ⟨rfl, hsize, rfl, sends_of_body hbody, Nat.le_of_not_lt hwithin⟩

/-- With an encodable header, the size of the body alone decides whether a packet is prepared. -/
theorem prepare_of_body (hheader : packet.header.size ≤ PacketHeader.maxSize)
    {compression : Option CompressionKind} {sent : ByteArray}
    (hbody : packet.body compressors options = .ok (compression, sent)) :
    packet.prepare compressors options =
      if options.maxPayloadSize < sent.size then .error (.oversized sent.size)
      else .ok ⟨packet.version, compression, packet.header.bytes, sent⟩ := by
  have hencode : packet.header.encode = .ok packet.header.bytes :=
    PacketHeader.encode_eq_ok_iff.mpr ⟨hheader, rfl⟩
  simp only [prepare, hencode, hbody, bind, Except.bind]

/-- Preparing succeeds for an encodable header and a payload within the limit. -/
theorem prepare_isOk (hheader : packet.header.size ≤ PacketHeader.maxSize)
    (hmax : packet.payload.size ≤ options.maxPayloadSize)
    (hcompress : ∀ kind ∈ options.compression,
      ∃ small, compressors.compress kind packet.payload = .ok small) :
    ∃ prepared, packet.prepare compressors options = .ok prepared := by
  obtain ⟨compression, sent, hbody⟩ := body_isOk hcompress
  have hsent : sent.size ≤ options.maxPayloadSize :=
    Nat.le_trans (sends_of_body hbody).size_le hmax
  exact ⟨_, (prepare_of_body hheader hbody).trans (if_neg (Nat.not_lt.mpr hsent))⟩

/-- Without compression the payload itself goes on the wire. -/
theorem prepare_plain (hcompression : options.compression = none)
    (hheader : packet.header.size ≤ PacketHeader.maxSize)
    (hmax : packet.payload.size ≤ options.maxPayloadSize) :
    packet.prepare compressors options =
      .ok ⟨packet.version, none, packet.header.bytes, packet.payload⟩ := by
  have hbody : packet.body compressors options = .ok (none, packet.payload) := by
    simp only [body, hcompression]
  rw [prepare_of_body hheader hbody, if_neg (Nat.not_lt.mpr hmax)]

theorem toFrame_eq_ok_iff {frame : ByteArray} :
    packet.toFrame compressors options = .ok frame ↔
      ∃ prepared, packet.prepare compressors options = .ok prepared ∧ prepared.bytes = frame := by
  simp only [toFrame, bind_eq_ok_iff, Except.ok.injEq]

/-- A frame goes to the end of the buffer, which otherwise stays as it was. -/
theorem appendFrame_cases (compressors : Compressors) (options : WireOptions) (packet : Packet)
    (buffer : ByteArray) :
    (∃ error, packet.appendFrame compressors options buffer = (.error error, buffer)) ∨
      ∃ compressed frame, packet.toFrame compressors options = .ok frame ∧
        packet.appendFrame compressors options buffer = (.ok compressed, buffer ++ frame) := by
  unfold appendFrame
  cases hprepared : packet.prepare compressors options with
  | error error => exact .inl ⟨error, rfl⟩
  | ok prepared =>
    have hframe : packet.toFrame compressors options = .ok prepared.bytes :=
      toFrame_eq_ok_iff.mpr ⟨prepared, hprepared, rfl⟩
    exact .inr ⟨prepared.compression.isSome, prepared.bytes, hframe, rfl⟩

/-! ### Opening a frame -/

/-- A header that is small enough and a body within the limit are found again in their frame, and
the body is expanded as the flag says. -/
theorem ofFrame_bytes {header : PacketHeader} (hheader : header.size ≤ PacketHeader.maxSize)
    {limit : Nat} {sent : ByteArray} (hlimit : sent.size ≤ limit) (hsent : sent.size < 2 ^ 32)
    (compression : Option CompressionKind) :
    ofFrame compressors limit
        (Prepared.bytes ⟨FramePrefix.version, compression, header.bytes, sent⟩) =
      match compression with
      | none => .ok (.current header sent)
      | some kind => (compressors.expandWithin kind limit sent).map (Packet.current header) := by
  have hframe : Prepared.Admitted limit ⟨FramePrefix.version, compression, header.bytes, sent⟩ :=
    Prepared.admitted rfl rfl hheader hlimit hsent
  have hdecode := PacketHeader.decode_bytes (PacketHeader.lt_of_le_maxSize hheader)
  rw [ofFrame_prepared hframe, opened, hdecode, payloadOf_flag]
  cases compression with
  | none => rfl
  | some kind => cases compressors.expandWithin kind limit sent <;> rfl

/-- What was prepared from a packet of the version that is read opens to the packet if the payload is
within the limit, and is refused if it is not. -/
theorem ofFrame_of_prepare {prepared : Prepared}
    (hprepared : packet.prepare compressors options = .ok prepared)
    (hversion : packet.version = FramePrefix.version) (hpayload : packet.payload.size < 2 ^ 32)
    (hrestores : ∀ kind ∈ options.compression, compressors.Restores kind packet.payload)
    {limit : Nat} (hlimit : prepared.body.size ≤ limit) :
    ofFrame compressors limit prepared.bytes =
      if packet.payload.size ≤ limit then .ok packet else .error .decompressionFailure := by
  obtain ⟨hwritten, hheader, hencoded, hsends, -⟩ := prepares_of_prepare hprepared
  have hsent : prepared.body.size < 2 ^ 32 := Nat.lt_of_le_of_lt hsends.size_le hpayload
  have hcurrent : Packet.current packet.header packet.payload = packet := by
    rw [Packet.current, ← hversion]
  obtain ⟨version, compression, header, sent⟩ := prepared
  obtain rfl : version = FramePrefix.version := hwritten.trans hversion
  obtain rfl : header = packet.header.bytes := hencoded
  rw [ofFrame_bytes hheader hlimit hsent]
  cases hsends with
  | plain => simp only [hcurrent, if_pos hlimit]
  | compressed kind _ hkind hsmall hshorter =>
    simp only [(hrestores kind hkind).expandWithin_eq_ite hpayload hsmall]
    split
    · simp only [Except.map, hcurrent]
    · rfl

/-! ### A packet of zero octets -/

/-- A packet of zero octets that says nothing of them. -/
def blank (size : Nat) : Packet := .current (.ofKind .binary) ⟨Array.replicate size 0⟩

/-- What goes on the wire for 48 zero octets: one run in a Zstandard frame. -/
def shortened : Prepared :=
  ⟨FramePrefix.version, some .zstd, (blank 48).header.bytes,
    [40, 181, 47, 253, 0, 56, 131, 1, 0, 0].toByteArray⟩

theorem restores_blank : ∀ kind ∈ some CompressionKind.zstd,
    Compressors.standard.Restores kind (blank 48).payload := by
  rintro _ ⟨⟩
  constructor
  · intro small hsmall
    obtain rfl := Option.some.inj hsmall
    decide +kernel
  · exact nofun

theorem compress_blank : ∀ kind ∈ some CompressionKind.zstd,
    ∃ small, Compressors.standard.compress kind (blank 48).payload = .ok small := by
  rintro _ ⟨⟩
  exact ⟨_, rfl⟩

theorem body_blank (limit : Nat) : (blank 48).body .standard ⟨some .zstd, 0, limit⟩ =
    .ok (some .zstd, shortened.body) := by
  have hworth : worthCompressing 0 (blank 48).payload = true := rfl
  have hsmall : Compressors.standard.compress .zstd (blank 48).payload = .ok shortened.body :=
    Compressors.compress_eq_ok_iff.mpr (by decide +kernel)
  have hshorter : shortened.body.size < (blank 48).payload.size := by decide
  simp only [body, Compressors.compressIfBeneficial, hworth, hsmall, hshorter, if_true, bind,
    Except.bind]

theorem prepare_blank {limit : Nat} (hlimit : shortened.body.size ≤ limit) :
    (blank 48).prepare .standard ⟨some .zstd, 0, limit⟩ = .ok shortened := by
  rw [prepare_of_body (by decide) (body_blank limit), if_neg (Nat.not_lt.mpr hlimit)]
  rfl

/-! ### The round trip -/

/-- The octets of a frame behind its header. -/
def wireBody (packet : Packet) (frame : ByteArray) : ByteArray :=
  frame.extract (FramePrefix.size + packet.header.size) frame.size

theorem wireBody_bytes {prepared : Prepared} (hencoded : prepared.header = packet.header.bytes) :
    packet.wireBody prepared.bytes = prepared.body := by
  have hsize : packet.header.size = prepared.header.size := by
    rw [hencoded, packet.header.size_bytes]
  rw [wireBody, hsize, prepared.extract_body]

/-- The flag is set exactly for a body that a compressor made, and that is shorter than the
payload. -/
theorem Sends.flag_ne_zero_iff {payload sent : ByteArray} {compression : Option CompressionKind}
    (h : Sends compressors options payload compression sent) :
    FramePrefix.flag compression ≠ 0 ↔ ∃ kind ∈ options.compression,
      compressors.compress kind payload = .ok sent ∧ sent.size < payload.size := by
  rw [ne_eq, FramePrefix.flag_eq_zero_iff]
  cases h with
  | plain =>
    refine ⟨fun hflag ↦ absurd rfl hflag, ?_⟩
    rintro ⟨kind, -, -, hshorter⟩
    exact absurd hshorter (Nat.lt_irrefl _)
  | compressed kind _ hkind hsmall hshorter =>
    exact ⟨fun _ ↦ ⟨kind, hkind, hsmall, hshorter⟩, fun _ ↦ nofun⟩

theorem Sends.eq_of_flag {payload sent : ByteArray} {compression : Option CompressionKind}
    (h : Sends compressors options payload compression sent)
    (hflag : FramePrefix.flag compression = 0) : sent = payload := by
  rw [FramePrefix.flag_eq_zero_iff] at hflag
  cases h with
  | plain => rfl
  | compressed kind _ hkind hsmall hshorter => cases hflag

/-- A payload within the limits of both ends survives the wire. Assumes: a packet of the version of
the wire format, as every packet is that anyone can have (`Obtainable.sendable`), an encoded header
that fits in a frame, a payload whose size fits in its field and in both limits, and, where
compression is asked for, a compressor that does not fail on the payload and restores it. The frame
opens to the packet and is never longer than the frame without compression; its flag is set exactly
if what stands behind the header is the compressed payload and shorter than the payload, which
otherwise stands there itself. -/
theorem ofFrame_toFrame (compressors : Compressors) (options : WireOptions) (packet : Packet)
    (limit : Nat) (hversion : packet.version = FramePrefix.version)
    (hheader : packet.header.bytes.size ≤ PacketHeader.maxSize)
    (hpayload : packet.payload.size < 2 ^ 32) (hmax : packet.payload.size ≤ options.maxPayloadSize)
    (hlimit : packet.payload.size ≤ limit)
    (hcompress : ∀ kind ∈ options.compression,
      ∃ small, compressors.compress kind packet.payload = .ok small)
    (hrestores : ∀ kind ∈ options.compression, compressors.Restores kind packet.payload) :
    ∃ frame plain, packet.toFrame compressors options = .ok frame ∧
      ofFrame compressors limit frame = .ok packet ∧ octetAt frame 4 = packet.version ∧
      packet.toFrame compressors { options with compression := none } = .ok plain ∧
      frame.size ≤ plain.size ∧
      (octetAt frame 5 ≠ 0 ↔ ∃ kind ∈ options.compression,
        compressors.compress kind packet.payload = .ok (packet.wireBody frame) ∧
          (packet.wireBody frame).size < packet.payload.size) ∧
      (octetAt frame 5 = 0 → packet.wireBody frame = packet.payload) := by
  rw [packet.header.size_bytes] at hheader
  obtain ⟨prepared, hprepared⟩ := prepare_isOk hheader hmax hcompress
  obtain ⟨hwritten, -, hencoded, hsends, -⟩ := prepares_of_prepare hprepared
  have hplain : packet.prepare compressors { options with compression := none } =
      .ok ⟨packet.version, none, packet.header.bytes, packet.payload⟩ :=
    prepare_plain rfl hheader hmax
  have hopened : ofFrame compressors limit prepared.bytes = .ok packet := by
    rw [ofFrame_of_prepare hprepared hversion hpayload hrestores
      (Nat.le_trans hsends.size_le hlimit), if_pos hlimit]
  have hshorter : prepared.bytes.size ≤
      (Prepared.bytes ⟨packet.version, none, packet.header.bytes, packet.payload⟩).size := by
    have hbody := hsends.size_le
    simp only [Prepared.size_bytes, FramePrefix.frameSize, Prepared.announced, hencoded]
    omega
  refine ⟨prepared.bytes, _, toFrame_eq_ok_iff.mpr ⟨prepared, hprepared, rfl⟩, hopened,
    prepared.octetAt_version.trans hwritten, toFrame_eq_ok_iff.mpr ⟨_, hplain, rfl⟩, hshorter,
    ?_, ?_⟩
  · rw [prepared.octetAt_flag, wireBody_bytes hencoded]
    exact hsends.flag_ne_zero_iff
  · rw [prepared.octetAt_flag, wireBody_bytes hencoded]
    exact hsends.eq_of_flag

/-- The round trip of a payload that both limits just admit, and that is compressed. -/
theorem ofFrame_toFrame_blank :
    ∃ frame plain, (blank 48).toFrame .standard ⟨some .zstd, 0, 48⟩ = .ok frame ∧
      ofFrame .standard 48 frame = .ok (blank 48) ∧
      (blank 48).toFrame .standard ⟨none, 0, 48⟩ = .ok plain ∧ frame.size ≤ plain.size := by
  obtain ⟨frame, plain, hframe, hopened, -, hplain, hsize, -, -⟩ :=
    ofFrame_toFrame .standard ⟨some .zstd, 0, 48⟩ (blank 48) 48 rfl (by decide) (by decide)
      (by decide) (by decide) compress_blank restores_blank
  exact ⟨frame, plain, hframe, hopened, hplain, hsize⟩

end Packet

end TypedPacket
