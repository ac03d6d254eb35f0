import TypedPacket.Proofs.Stream.Take

/-!
# Two ends with the same options

The limit of an end that writes is one on bodies, the limit of an end that reads is one on bodies
and on payloads. The two differ where compression brings a payload above the limit to a body below
it: such a frame goes out, and no end with the same options takes it. For all other payloads the
ends agree, and `Codec.take_toFrame` says both.
-/

set_option autoImplicit false
set_option relaxedAutoImplicit false

namespace TypedPacket.Codec

variable {codec : Codec}

/-- A frame of the version that is read, with a body within the limit, is taken from the front of a
buffer. It gives the packet it was made of if the payload is within the limit too. -/
theorem take_append_of_prepare {options : WireOptions} {packet : Packet}
    {prepared : Packet.Prepared}
    (hprepared : packet.prepare codec.compressors options = .ok prepared)
    (hversion : packet.version = FramePrefix.version) (hpayload : packet.payload.size < 2 ^ 32)
    (hrestores : ∀ kind ∈ options.compression, codec.compressors.Restores kind packet.payload)
    (hlimit : prepared.body.size ≤ codec.options.maxPayloadSize) (rest : ByteArray) :
    codec.take (prepared.bytes ++ rest) =
      (if packet.payload.size ≤ codec.options.maxPayloadSize then .ok (some packet)
        else .error .decompressionFailure, rest) := by
  have hopened := Packet.ofFrame_of_prepare hprepared hversion hpayload hrestores hlimit
  have hprepares := Packet.prepares_of_prepare hprepared
  have hadmitted : prepared.Admitted codec.options.maxPayloadSize :=
    Packet.Prepared.admitted (hprepares.version_eq.trans hversion) hprepares.header_eq
      hprepares.size_header_le hlimit (Nat.lt_of_le_of_lt hprepares.sends.size_le hpayload)
  rw [take_append_of_admitted hadmitted, hopened]
  split <;> rfl

/-- What one end sends, an end with the same options takes exactly if the payload is within the
limit. Assumes: a packet of the version of the wire format, as all are that can be had, a payload
whose size fits in its field, and, where compression is asked for, a compressor that restores the
payload. A longer payload, which only compression brings onto the wire, is refused by both ways to
read the frame. -/
theorem take_toFrame (codec : Codec) (packet : Packet) (frame : ByteArray)
    (hversion : packet.version = FramePrefix.version) (hpayload : packet.payload.size < 2 ^ 32)
    (hrestores : ∀ kind ∈ codec.options.compression,
      codec.compressors.Restores kind packet.payload)
    (hsent : packet.toFrame codec.compressors codec.options = .ok frame ∨
      ∃ notices, codec.encode packet .empty = .ok (frame, notices)) :
    (packet.payload.size ≤ codec.options.maxPayloadSize →
      Packet.ofFrame codec.compressors codec.options.maxPayloadSize frame = .ok packet ∧
        ∀ rest, codec.take (frame ++ rest) = (.ok (some packet), rest)) ∧
    (codec.options.maxPayloadSize < packet.payload.size →
      octetAt frame 5 ≠ 0 ∧
        Packet.ofFrame codec.compressors codec.options.maxPayloadSize frame =
          .error .decompressionFailure ∧
        ∀ rest, codec.take (frame ++ rest) = (.error .decompressionFailure, rest)) := by
  have hframe : packet.toFrame codec.compressors codec.options = .ok frame := by
    rcases hsent with hframe | ⟨notices, hencode⟩
    · exact hframe
    · obtain ⟨sent, hframe, hafter⟩ := encode_eq_ok hencode
      rwa [hafter, ByteArray.empty_append]
  obtain ⟨prepared, hprepared, rfl⟩ := Packet.toFrame_eq_ok_iff.mp hframe
  have hprepares := Packet.prepares_of_prepare hprepared
  have hwithin := hprepares.size_body_le
  have hopened := Packet.ofFrame_of_prepare hprepared hversion hpayload hrestores hwithin
  have htaken := take_append_of_prepare hprepared hversion hpayload hrestores hwithin
  refine ⟨fun hshort ↦ ?_, fun hlong ↦ ?_⟩
  · simp only [hshort, if_true] at hopened htaken
    exact ⟨hopened, htaken⟩
  · simp only [Nat.not_le.mpr hlong, if_false] at hopened htaken
    refine ⟨fun hflag ↦ ?_, hopened, htaken⟩
    -- Without compression the body would be the payload, and within the limit.
    rw [prepared.octetAt_flag] at hflag
    rw [hprepares.sends.eq_of_flag hflag] at hwithin
    omega

/-- A limit of 48 octets on both ends admits 48 zero octets, and one of 32 does not, though the
frame goes out. -/
theorem take_toFrame_blank :
    (∀ rest, Codec.take ⟨.standard, ⟨some .zstd, 0, 48⟩⟩ (Packet.shortened.bytes ++ rest) =
      (.ok (some (Packet.blank 48)), rest)) ∧
    ∀ rest, Codec.take ⟨.standard, ⟨some .zstd, 0, 32⟩⟩ (Packet.shortened.bytes ++ rest) =
      (.error .decompressionFailure, rest) := by
  have hsent : ∀ limit, Packet.shortened.body.size ≤ limit →
      (Packet.blank 48).toFrame .standard ⟨some .zstd, 0, limit⟩ =
        .ok Packet.shortened.bytes := by
    intro limit hlimit
    exact Packet.toFrame_eq_ok_iff.mpr ⟨_, Packet.prepare_blank hlimit, rfl⟩
  have hwide := take_toFrame ⟨.standard, ⟨some .zstd, 0, 48⟩⟩ (Packet.blank 48) _ rfl (by decide)
    Packet.restores_blank (.inl (hsent 48 (by decide)))
  have hnarrow := take_toFrame ⟨.standard, ⟨some .zstd, 0, 32⟩⟩ (Packet.blank 48) _ rfl (by decide)
    Packet.restores_blank (.inl (hsent 32 (by decide)))
  exact ⟨(hwide.1 (by decide)).2, (hnarrow.2 (by decide)).2.2⟩

/-- Two ends with the same options do not always agree: with a limit of 32 octets the frame of 48
zero octets goes out, and is refused as soon as it comes in. -/
theorem exists_toFrame_refused :
    ∃ (options : WireOptions) (packet : Packet) (frame : ByteArray),
      packet.version = FramePrefix.version ∧
      packet.header.bytes.size ≤ PacketHeader.maxSize ∧ packet.payload.size < 2 ^ 32 ∧
      (∀ kind ∈ options.compression, Compressors.standard.Restores kind packet.payload) ∧
      packet.toFrame .standard options = .ok frame ∧
      Packet.ofFrame .standard options.maxPayloadSize frame = .error .decompressionFailure ∧
      Codec.take ⟨.standard, options⟩ frame = (.error .decompressionFailure, .empty) := by
  have hprepared : (Packet.blank 48).prepare .standard ⟨some .zstd, 0, 32⟩ = .ok Packet.shortened :=
    Packet.prepare_blank (by decide)
  have hpayload : (Packet.blank 48).payload.size < 2 ^ 32 := by decide
  have hbody : Packet.shortened.body.size ≤ 32 := by decide
  have hopened : Packet.ofFrame .standard 32 Packet.shortened.bytes =
      .error .decompressionFailure :=
    Packet.ofFrame_of_prepare hprepared rfl hpayload Packet.restores_blank hbody
  have htaken : Codec.take ⟨.standard, ⟨some .zstd, 0, 32⟩⟩ (Packet.shortened.bytes ++ .empty) =
      (.error .decompressionFailure, .empty) :=
    take_append_of_prepare hprepared rfl hpayload Packet.restores_blank hbody .empty
  rw [ByteArray.append_empty] at htaken
  exact ⟨⟨some .zstd, 0, 32⟩, Packet.blank 48, Packet.shortened.bytes, rfl, by decide, hpayload,
    Packet.restores_blank, Packet.toFrame_eq_ok_iff.mpr ⟨_, hprepared, rfl⟩, hopened, htaken⟩

end TypedPacket.Codec
