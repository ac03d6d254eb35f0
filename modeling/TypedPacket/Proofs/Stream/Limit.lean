import TypedPacket.Proofs.Stream.Segments

/-!
# What a limit does

A limit on payloads changes nothing but acceptance. Octets that open to a packet within one limit
open to the same packet within any other, unless the body of the frame, the payload or what an LZ4
body claims is beyond that (`Packet.Exceeds`); then they are refused, for the size of the body if it
is the body, and as a failed expansion otherwise (`Packet.ofFrame_within`). A codec takes a frame
from the front of a buffer with the same outcome (`Codec.take_within`). So no limit lets a longer
payload through or cuts one short, and to raise a limit only ever admits more
(`Codec.take_monotone`).
-/

set_option autoImplicit false
set_option relaxedAutoImplicit false

namespace TypedPacket

/-! ### Frames -/

namespace Packet

variable {compressors : Compressors} {limit wider : Nat} {bytes : ByteArray} {packet : Packet}

/-- A frame asks for more than the limit: its body is longer, or the payload is, or an LZ4 body
claims to expand to more. -/
inductive Exceeds (limit : Nat) (bytes : ByteArray) (packet : Packet) : Prop
  | body (hbody : limit < (bodySection bytes).size)
  | payload (hpayload : limit < packet.payload.size)
  | claim (size : Nat) (hlz4 : octetAt bytes 5 = 1)
      (hclaim : Compressors.claimedSize? (bodySection bytes) = some size) (hsize : limit < size)

/-- The error for a frame that asks for more than the limit. -/
def beyond (limit : Nat) (bytes : ByteArray) : PacketError :=
  if limit < (bodySection bytes).size then .oversized (bodySection bytes).size
  else .decompressionFailure

/-- A frame that one limit admits is admitted by any other that its body is within. -/
theorem Prepared.Admitted.within {frame : Prepared} (hframe : frame.Admitted wider)
    (hbody : frame.body.size ≤ limit) : frame.Admitted limit :=
  ⟨⟨hframe.headerSize_pos, hframe.headerSize_le, hbody, hframe.bodySize_lt⟩, hframe.version_eq⟩

/-- A frame whose body is beyond the limit is refused for its prefix. -/
theorem parse_of_lt {frame : Prepared} (hframe : frame.Admitted wider)
    (hbody : limit < frame.body.size) :
    FramePrefix.parse limit frame.bytes = .error (.oversized frame.body.size) := by
  rw [FramePrefix.parse_of_parse (Prepared.parse_bytes hframe) limit]
  exact if_pos hbody

/-- A payload that is its own body asks for no more than the body does. -/
theorem not_exceeds_plain {frame : Prepared} (hframe : frame.Admitted wider)
    (hbody : frame.body.size ≤ limit) (hplain : frame.compression = none)
    (hpayload : frame.body = packet.payload) : ¬ Exceeds limit frame.bytes packet := by
  have hsection := Prepared.bodySection_bytes hframe
  rintro (hlong | hlong | ⟨size, hlz4, -, -⟩)
  · rw [hsection] at hlong
    omega
  · rw [← hpayload] at hlong
    omega
  · rw [frame.octetAt_flag, FramePrefix.flag_eq_one_iff, hplain] at hlz4
    cases hlz4

/-- A compressed payload is within the limit exactly if it is not longer, nor claimed to be. -/
theorem exceeds_iff_of_compressed {frame : Prepared} {kind : CompressionKind}
    (hframe : frame.Admitted wider) (hbody : frame.body.size ≤ limit)
    (hkind : frame.compression = some kind)
    (hpayload : compressors.expandWithin kind wider frame.body = .ok packet.payload) :
    Exceeds limit frame.bytes packet ↔
      ¬ (Compressors.claimsWithin kind limit frame.body = true ∧ packet.payload.size ≤ limit) := by
  have hsection := Prepared.bodySection_bytes hframe
  have hclaims := (Compressors.expandWithin_eq_ok_iff.mp hpayload).1
  have hflag : octetAt frame.bytes 5 = 1 ↔ kind = .lz4 := by
    rw [frame.octetAt_flag, FramePrefix.flag_eq_one_iff, hkind, Option.some.injEq]
  rw [Compressors.claimsWithin_eq_true_iff hclaims]
  constructor
  · rintro hexceeds ⟨hadmitted, hshort⟩
    rcases hexceeds with hlong | hlong | ⟨size, hlz4, hclaim, hsize⟩
    · rw [hsection] at hlong
      omega
    · omega
    · rw [hsection] at hclaim
      exact absurd (hadmitted (hflag.mp hlz4) size hclaim) (Nat.not_le.mpr hsize)
  · intro hbeyond
    by_cases hlong : limit < packet.payload.size
    · exact .payload hlong
    have hrefused : ¬ (kind = .lz4 →
        ∀ size, Compressors.claimedSize? frame.body = some size → size ≤ limit) :=
      fun hadmitted ↦ hbeyond ⟨hadmitted, Nat.le_of_not_lt hlong⟩
    obtain ⟨hlz4, size, hclaim, hsize⟩ :
        kind = .lz4 ∧ ∃ size, Compressors.claimedSize? frame.body = some size ∧ limit < size := by
      simpa only [Classical.not_imp, Classical.not_forall, Nat.not_le] using hrefused
    rw [← hsection] at hclaim
    exact .claim size (hflag.mpr hlz4) hclaim hsize

/-- Octets that open within one limit open to the same packet within any other, or ask for more and
are refused. -/
theorem ofFrame_within (hopened : ofFrame compressors wider bytes = .ok packet) (limit : Nat) :
    ¬ Exceeds limit bytes packet ∧ ofFrame compressors limit bytes = .ok packet ∨
      Exceeds limit bytes packet ∧
        ofFrame compressors limit bytes = .error (beyond limit bytes) := by
  obtain ⟨frame, hframe, rfl, hversion, hheader, hpayload⟩ := ofFrame_eq_ok_iff.mp hopened
  have hsection := Prepared.bodySection_bytes hframe
  by_cases hbody : limit < frame.body.size
  · refine .inr ⟨.body (hsection ▸ hbody), ?_⟩
    rw [beyond, hsection, if_pos hbody]
    simp only [ofFrame, parse_of_lt hframe hbody, bind, Except.bind]
  · have hwithin := Nat.le_of_not_lt hbody
    rw [ofFrame_prepared (hframe.within hwithin), opened, hheader, beyond, hsection,
      if_neg hbody, ← hversion]
    rw [payloadOf_flag] at hpayload ⊢
    cases hcompression : frame.compression with
    | none =>
      rw [hcompression] at hpayload
      have hsame : frame.body = packet.payload := Except.ok.inj hpayload
      refine .inl ⟨not_exceeds_plain hframe hwithin hcompression hsame, ?_⟩
      simp only [hsame, bind, Except.bind]
    | some kind =>
      rw [hcompression] at hpayload
      rw [exceeds_iff_of_compressed hframe hwithin hcompression hpayload]
      simp only [Compressors.expandWithin_of_expandWithin hpayload limit, bind, Except.bind]
      by_cases hfits : Compressors.claimsWithin kind limit frame.body = true ∧
          packet.payload.size ≤ limit
      · exact .inl ⟨not_not_intro hfits, by rw [if_pos hfits]⟩
      · exact .inr ⟨hfits, by rw [if_neg hfits]⟩

theorem Exceeds.mono (h : Exceeds wider bytes packet) (hlimits : limit ≤ wider) :
    Exceeds limit bytes packet := by
  cases h with
  | body hbody => exact .body (Nat.lt_of_le_of_lt hlimits hbody)
  | payload hpayload => exact .payload (Nat.lt_of_le_of_lt hlimits hpayload)
  | claim size hlz4 hclaim hsize => exact .claim size hlz4 hclaim (Nat.lt_of_le_of_lt hlimits hsize)

theorem not_exceeds (hopened : ofFrame compressors limit bytes = .ok packet) :
    ¬ Exceeds limit bytes packet := by
  rcases ofFrame_within hopened limit with ⟨hfits, -⟩ | ⟨-, hrefused⟩
  · exact hfits
  · cases hopened.symm.trans hrefused

/-- What opens within a limit has a payload within it, and opens to the same within a wider one. -/
theorem ofFrame_of_le (hopened : ofFrame compressors limit bytes = .ok packet)
    (hlimits : limit ≤ wider) :
    packet.payload.size ≤ limit ∧ ofFrame compressors wider bytes = .ok packet := by
  have hfits := not_exceeds hopened
  refine ⟨Nat.le_of_not_lt fun hlong ↦ hfits (.payload hlong), ?_⟩
  rcases ofFrame_within hopened wider with ⟨-, hopened⟩ | ⟨hexceeds, -⟩
  · exact hopened
  · exact absurd (hexceeds.mono hlimits) hfits

end Packet

/-! ### Buffers -/

namespace Codec

variable {narrow broad : Codec} {bytes : ByteArray} {packet : Packet}

/-- Octets are taken from the front of a buffer as a packet exactly if they are a frame of it. -/
theorem take_append_eq_ok_iff {codec : Codec} {rest : ByteArray} :
    codec.take (bytes ++ rest) = (.ok (some packet), rest) ↔ codec.Accepts bytes packet := by
  refine ⟨fun htake ↦ ?_, fun haccepts ↦ take_append_of_accepts haccepts rest⟩
  cases codec.front (bytes ++ rest) with
  | waiting hwaits => cases hwaits.symm.trans htake
  | refused error hparse => cases (take_of_refused hparse).symm.trans htake
  | framed pre frame behind hbuffer hparse hsize =>
    rw [hbuffer, take_append_of_framed hparse hsize] at htake
    obtain ⟨htaken, rfl⟩ := Prod.mk.inj htake
    obtain rfl := (ByteArray.append_left_inj _).mp hbuffer
    cases hopened : Packet.ofFrame codec.compressors codec.options.maxPayloadSize bytes with
    | error error =>
      rw [hopened] at htaken
      cases htaken
    | ok opened =>
      rw [hopened] at htaken
      cases htaken
      exact hopened

/-- A frame that one codec accepts is taken by another with the same compressors, or asks for more
and is refused: for its prefix, which stays, or with its body. -/
theorem take_within (haccepts : broad.Accepts bytes packet)
    (hsame : narrow.compressors = broad.compressors) (rest : ByteArray) :
    let limit := narrow.options.maxPayloadSize
    ¬ Packet.Exceeds limit bytes packet ∧
        narrow.take (bytes ++ rest) = (.ok (some packet), rest) ∨
      Packet.Exceeds limit bytes packet ∧
        narrow.take (bytes ++ rest) = (.error (Packet.beyond limit bytes),
          if limit < (Packet.bodySection bytes).size then bytes ++ rest else rest) := by
  intro limit
  have hopened : Packet.ofFrame narrow.compressors broad.options.maxPayloadSize bytes =
      .ok packet := hsame ▸ haccepts
  rcases Packet.ofFrame_within hopened limit with ⟨hfits, htaken⟩ | ⟨hexceeds, hrefused⟩
  · exact .inl ⟨hfits, take_append_of_accepts htaken rest⟩
  · refine .inr ⟨hexceeds, ?_⟩
    obtain ⟨frame, hframe, rfl, -, -⟩ := Packet.ofFrame_eq_ok_iff.mp hopened
    rw [Packet.Prepared.bodySection_bytes hframe]
    by_cases hbody : limit < frame.body.size
    · have hparse := Packet.parse_of_lt hframe hbody
      rw [if_pos hbody, take_append_of_refused hparse, Packet.beyond,
        Packet.Prepared.bodySection_bytes hframe, if_pos hbody]
    · have hadmitted := hframe.within (Nat.le_of_not_lt hbody)
      rw [if_neg hbody, take_append_of_admitted hadmitted, hrefused]
      rfl

/-- Assumes: two limits, the second no smaller than the first. What opens within the first has a
payload within it, compressed or not, and opens to the same packet within the second. What opens
within the second only has a body, a payload or an LZ4 claim beyond the first, and is refused within
that: for the size of the body if it is the body, and as a failed expansion otherwise. Two codecs
with these limits take a frame from the front of a buffer alike; where the narrower one refuses it,
the whole buffer is left if the body is too long, and what is behind the frame otherwise. -/
theorem take_monotone (compressors : Compressors) {limit wider : Nat} (hlimits : limit ≤ wider)
    (bytes : ByteArray) (packet : Packet) :
    (Packet.ofFrame compressors limit bytes = .ok packet →
      packet.payload.size ≤ limit ∧ Packet.ofFrame compressors wider bytes = .ok packet) ∧
    (Packet.ofFrame compressors wider bytes = .ok packet →
      Packet.ofFrame compressors limit bytes ≠ .ok packet →
      Packet.Exceeds limit bytes packet ∧
        Packet.ofFrame compressors limit bytes = .error (Packet.beyond limit bytes)) ∧
    ∀ narrow broad : Codec, narrow.compressors = compressors → broad.compressors = compressors →
      narrow.options.maxPayloadSize = limit → broad.options.maxPayloadSize = wider → ∀ rest,
      (narrow.take (bytes ++ rest) = (.ok (some packet), rest) →
        packet.payload.size ≤ limit ∧ broad.take (bytes ++ rest) = (.ok (some packet), rest)) ∧
      (broad.take (bytes ++ rest) = (.ok (some packet), rest) →
        narrow.take (bytes ++ rest) ≠ (.ok (some packet), rest) →
        Packet.Exceeds limit bytes packet ∧
          narrow.take (bytes ++ rest) = (.error (Packet.beyond limit bytes),
            if limit < (Packet.bodySection bytes).size then bytes ++ rest else rest)) := by
  refine ⟨fun hopened ↦ Packet.ofFrame_of_le hopened hlimits, fun hopened hfails ↦ ?_, ?_⟩
  · rcases Packet.ofFrame_within hopened limit with ⟨-, htaken⟩ | hrefused
    · exact absurd htaken hfails
    · exact hrefused
  · rintro narrow broad rfl hsame rfl rfl rest
    refine ⟨fun htaken ↦ ?_, fun htaken hfails ↦ ?_⟩
    · obtain ⟨hsize, hopened⟩ := Packet.ofFrame_of_le (take_append_eq_ok_iff.mp htaken) hlimits
      have haccepts : broad.Accepts bytes packet := by rwa [Accepts, hsame]
      exact ⟨hsize, take_append_of_accepts haccepts rest⟩
    · rcases take_within (take_append_eq_ok_iff.mp htaken) hsame.symm rest with
        ⟨-, htaken⟩ | hrefused
      · exact absurd htaken hfails
      · exact hrefused

/-- An LZ4 body of eight octets that claims to expand to a hundred and expands to three. -/
def boastful : Packet.Prepared :=
  ⟨FramePrefix.version, some .lz4, (PacketHeader.ofKind .binary).bytes,
    [100, 0, 0, 0, 0x30, 1, 2, 3].toByteArray⟩

theorem expandWithin_boastful : Compressors.standard.expandWithin .lz4 100 boastful.body =
    .ok [1, 2, 3].toByteArray :=
  Compressors.expandWithin_eq_ok_iff.mpr (by decide +kernel)

theorem accepts_boastful : Packet.ofFrame .standard 100 boastful.bytes =
    .ok (.current (.ofKind .binary) [1, 2, 3].toByteArray) := by
  rw [boastful, Packet.ofFrame_bytes (by decide) (by decide) (by decide)]
  exact congrArg (Except.map _) expandWithin_boastful

theorem exceeds_boastful (packet : Packet) : Packet.Exceeds 10 boastful.bytes packet :=
  .claim 100 (by decide) (by decide) (by decide)

theorem beyond_boastful : Packet.beyond 10 boastful.bytes = .decompressionFailure :=
  if_neg (by decide)

/-- It opens within its claim, and is refused within ten octets, where body and payload are. -/
theorem take_monotone_boastful :
    Packet.ofFrame .standard 100 boastful.bytes =
        .ok (.current (.ofKind .binary) [1, 2, 3].toByteArray) ∧
      Packet.ofFrame .standard 10 boastful.bytes = .error .decompressionFailure ∧
      ∀ rest, Codec.take ⟨.standard, ⟨none, 0, 10⟩⟩ (boastful.bytes ++ rest) =
        (.error .decompressionFailure, rest) := by
  obtain ⟨-, hnarrow, hcodecs⟩ := take_monotone .standard (by decide : 10 ≤ 100) boastful.bytes
    (.current (.ofKind .binary) [1, 2, 3].toByteArray)
  have hfails : Packet.ofFrame .standard 10 boastful.bytes ≠
      .ok (.current (.ofKind .binary) [1, 2, 3].toByteArray) :=
    fun hopened ↦ Packet.not_exceeds hopened (exceeds_boastful _)
  refine ⟨accepts_boastful, ?_, fun rest ↦ ?_⟩
  · rw [(hnarrow accepts_boastful hfails).2, beyond_boastful]
  · let narrow : Codec := ⟨.standard, ⟨none, 0, 10⟩⟩
    let broad : Codec := ⟨.standard, ⟨none, 0, 100⟩⟩
    let packet : Packet := .current (.ofKind .binary) [1, 2, 3].toByteArray
    have haccepts : broad.Accepts boastful.bytes packet := accepts_boastful
    have hdenies : ¬ narrow.Accepts boastful.bytes packet := hfails
    have hrefused := ((hcodecs narrow broad rfl rfl rfl rfl rest).2
      (take_append_of_accepts haccepts rest) (mt take_append_eq_ok_iff.mp hdenies)).2
    have hbody : ¬ 10 < (Packet.bodySection boastful.bytes).size := by decide
    rw [hrefused, beyond_boastful, if_neg hbody]

end Codec

end TypedPacket
