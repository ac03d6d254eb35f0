import Mathlib.Logic.Relation
import TypedPacket.Proofs.Factory
import TypedPacket.Proofs.Frame.Header
import TypedPacket.Proofs.Frame.Lengths
import TypedPacket.Proofs.Text.Map

/-!
# The order of metadata never shows

What is said of a packet by one annotation after another is the last value of every key
(`PacketOptions.get?_annotate`), and a factory does not look at anything else
(`Factory.build_annotate`). In a frame, entries may be put in another order or left out where a
later one replaces them: what the frame opens to stays the same (`Packet.ofFrame_rearranged`).
`Packet.metadata_unordered` says both.
-/

set_option autoImplicit false
set_option relaxedAutoImplicit false

namespace TypedPacket

open Relation (ReflTransGen)

/-! ### Annotations -/

namespace PacketOptions

/-- Options after annotations, each a key with its value, one after another. -/
def annotate (options : PacketOptions) (history : List (String × String)) : PacketOptions :=
  history.foldl (fun options entry ↦ options.withMetadata entry.1 entry.2) options

variable {options : PacketOptions} {history others : List (String × String)}

/-- Annotations change the metadata and nothing else. -/
theorem annotate_eq (options : PacketOptions) (history : List (String × String)) :
    options.annotate history =
      { options with
        metadata :=
          history.foldl (fun map entry ↦ map.insert entry.1 entry.2) options.metadata } := by
  induction history generalizing options with
  | nil => rfl
  | cons entry history ih =>
    rw [annotate, List.foldl_cons, ← annotate, ih]
    rfl

/-- A key has the value that was said last, or the one that it had. -/
theorem get?_annotate (options : PacketOptions) (history : List (String × String)) (key : String) :
    (options.annotate history).metadata.get? key =
      (Entries.last? key history).or (options.metadata.get? key) := by
  rw [annotate_eq]
  exact TextMap.get?_foldl_insert history options.metadata key

/-- Annotations that agree on the last value of every key are the same. -/
theorem annotate_eq_of_last? (h : ∀ key, Entries.last? key history = Entries.last? key others) :
    options.annotate history = options.annotate others := by
  have hmetadata : (options.annotate history).metadata = (options.annotate others).metadata :=
    TextMap.ext_get? fun key ↦ by rw [get?_annotate, get?_annotate, h]
  rw [annotate_eq, annotate_eq] at hmetadata ⊢
  exact congrArg (fun metadata ↦ { options with metadata }) hmetadata

end PacketOptions

namespace Factory

variable {factory : Factory} {options : PacketOptions}

/-- A factory that is told the capture time, or does not stamp any, does not look at the clock. -/
theorem build_clock (clock clock' : Clock)
    (htime : options.captureTime.isSome = true ∨ factory.settings.stampCaptureTime = false)
    (payload : Payload) :
    factory.build clock options payload = factory.build clock' options payload := by
  have hcapture : factory.captureTime clock options = factory.captureTime clock' options := by
    unfold captureTime
    cases htold : options.captureTime with
    | some time => rfl
    | none =>
      rw [htold] at htime
      simp only [htime.resolve_left nofun, Bool.false_eq_true, if_false]
  unfold build assemble
  rw [hcapture]

/-- Annotations that agree on the last value of every key build the same, at any time. -/
theorem build_annotate {history others : List (String × String)} (clock clock' : Clock)
    (h : ∀ key, Entries.last? key history = Entries.last? key others)
    (htime : options.captureTime.isSome = true ∨ factory.settings.stampCaptureTime = false)
    (payload : Payload) :
    factory.build clock (options.annotate history) payload =
      factory.build clock' (options.annotate others) payload := by
  rw [PacketOptions.annotate_eq_of_last? h]
  refine build_clock clock clock' ?_ payload
  rwa [PacketOptions.annotate_eq]

theorem metadata_of_build {clock : Clock} {payload : Payload} {packet : Packet}
    (hbuild : (factory.build clock options payload).1 = .ok packet) :
    packet.header.metadata = options.metadata := by
  obtain ⟨serialized, -, -, hassemble⟩ := build_eq_ok_iff.mp hbuild
  obtain ⟨-, time, -, -, rfl⟩ := assemble_eq_ok_iff.mp hassemble
  rfl

end Factory

/-! ### Entries in a frame -/

namespace FixedWidth

variable {l l' : List (String × String)}

theorem entriesSize_append (l l' : List (String × String)) :
    entriesSize (l ++ l') = entriesSize l + entriesSize l' := by
  induction l with
  | nil => exact (Nat.zero_add _).symm
  | cons entry l ih =>
    rw [List.cons_append, entriesSize_cons, entriesSize_cons, ih]
    omega

theorem entriesSize_perm (h : l.Perm l') : entriesSize l = entriesSize l' := by
  induction h with
  | nil => rfl
  | cons entry _ ih => rw [entriesSize_cons, entriesSize_cons, ih]
  | swap entry other l =>
    simp only [entriesSize_cons]
    omega
  | trans _ _ ih ih' => rw [ih, ih']

/-- Entries that are rearranged take no more octets. -/
theorem entriesSize_le_of_rearranges (h : Entries.Rearranges l l') :
    entriesSize l' ≤ entriesSize l := by
  cases h with
  | permute _ hperm => exact Nat.le_of_eq (entriesSize_perm hperm).symm
  | drop before key value after _ =>
    rw [entriesSize_append, entriesSize_append, entriesSize_cons]
    omega

end FixedWidth

namespace Packet

variable {compressors : Compressors} {limit : Nat} {bytes : ByteArray} {packet : Packet}

/-- A frame with another header, whose size is announced. -/
def withHeader (bytes header : ByteArray) : ByteArray :=
  bytes.extract 0 6 ++ (bigEndian 4 header.size).toByteArray ++ bytes.extract 10 14 ++ header ++
    bodySection bytes

theorem withHeader_bytes {frame : Prepared} (hframe : frame.Admitted limit)
    (header : ByteArray) :
    withHeader frame.bytes header = ({ frame with header } : Prepared).bytes := by
  apply octets_inj.mp
  rw [Prepared.octets_bytes, withHeader, Prepared.bodySection_bytes hframe]
  simp only [octets_append, octets_extract, octets_toByteArray, frame.octets_bytes]
  obtain ⟨a, b, c, d, hheader⟩ := FramePrefix.bigEndian_four frame.header.size
  obtain ⟨e, f, g, h, hbody⟩ := FramePrefix.bigEndian_four frame.body.size
  rw [hheader, hbody]
  rfl

/-- A step that rearranges the entries of a frame leaves a frame of the packet. -/
theorem Frames.rearrange {frame : Prepared} {entries others : List (String × String)}
    (h : Frames compressors limit packet frame entries)
    (hothers : Entries.Rearranges entries others) :
    Frames compressors limit packet
      { frame with header := packet.header.bytesWith others } others where
  admitted := by
    have hsize := h.size_bytesWith_le
    have hless := FixedWidth.entriesSize_le_of_rearranges hothers
    rw [PacketHeader.size_bytesWith] at hsize
    refine ⟨⟨?_, ?_, h.admitted.bodySize_le, h.admitted.bodySize_lt⟩, h.admitted.version_eq⟩
    · simp only [Prepared.announced, PacketHeader.size_bytesWith]
      omega
    · simp only [Prepared.announced, PacketHeader.size_bytesWith]
      omega
  version_eq := h.version_eq
  ofList_entries := by
    rw [← h.ofList_entries]
    exact TextMap.ofList_eq_iff.mpr fun key ↦ (hothers.last?_eq key).symm
  header_eq := rfl
  payloadOf_eq := h.payloadOf_eq

/-- So do steps one after another. -/
theorem Frames.rearranged {frame : Prepared} {entries others : List (String × String)}
    (h : Frames compressors limit packet frame entries)
    (hothers : ReflTransGen Entries.Rearranges entries others) :
    Frames compressors limit packet
      { frame with header := packet.header.bytesWith others } others := by
  induction hothers with
  | refl =>
    rw [← h.header_eq]
    exact h
  | tail _ hstep ih => exact ih.rearrange hstep

/-- The header of octets that open holds entries in one way, and with these entries rearranged the
octets open to the same packet. -/
theorem ofFrame_rearranged (h : ofFrame compressors limit bytes = .ok packet) :
    ∃ entries, (∀ others, headerSection bytes = packet.header.bytesWith others ↔ others = entries) ∧
      ∀ others, ReflTransGen Entries.Rearranges entries others →
        ofFrame compressors limit (withHeader bytes (packet.header.bytesWith others)) =
          .ok packet := by
  obtain ⟨frame, entries, hframe, rfl⟩ := ofFrame_eq_ok_iff_frames.mp h
  refine ⟨entries, fun others ↦ hframe.headerSection_eq_iff, fun others hothers ↦ ?_⟩
  rw [withHeader_bytes hframe.admitted]
  exact ofFrame_eq_ok_iff_frames.mpr ⟨_, others, hframe.rearranged hothers, rfl⟩

/-- A frame lists the metadata of its packet in increasing order of the keys. -/
theorem headerSection_of_toFrame {wire : WireOptions} {frame : ByteArray}
    (h : packet.toFrame compressors wire = .ok frame) :
    headerSection frame = packet.header.bytesWith packet.header.metadata.entries := by
  obtain ⟨prepared, hprepared, rfl⟩ := toFrame_eq_ok_iff.mp h
  rw [Prepared.headerSection_of_lt (size_header_of_prepare hprepared),
    (prepares_of_prepare hprepared).header_eq, PacketHeader.bytes_eq]

/-! ### Both sides -/

/-- Annotations that agree on the last value of every key, with the capture time told or not
stamped, build the same: equal packets, whose frames are equal octet for octet under any options and
list the last values in increasing order of the keys. And where octets open to a packet, with their
entries put in another order if the keys differ, or without an entry whose key comes again, any
number of times, they open to the same packet. -/
theorem metadata_unordered :
    (∀ (factory : Factory) (clock clock' : Clock) (options : PacketOptions) (payload : Payload)
        (history others : List (String × String)),
      (∀ key, Entries.last? key history = Entries.last? key others) →
      options.captureTime.isSome = true ∨ factory.settings.stampCaptureTime = false →
        factory.build clock (options.annotate history) payload =
            factory.build clock' (options.annotate others) payload ∧
        ∀ packet packet',
          (factory.build clock (options.annotate history) payload).1 = .ok packet →
          (factory.build clock' (options.annotate others) payload).1 = .ok packet' →
            packet' = packet ∧
            (∀ key, packet.header.metadata.get? key =
              (Entries.last? key history).or (options.metadata.get? key)) ∧
            Entries.Increasing packet.header.metadata.entries ∧
            ∀ (compressors : Compressors) (wire : WireOptions),
              packet'.toFrame compressors wire = packet.toFrame compressors wire ∧
              ∀ frame, packet.toFrame compressors wire = .ok frame →
                headerSection frame =
                  packet.header.bytesWith packet.header.metadata.entries) ∧
    ∀ (compressors : Compressors) (limit : Nat) (bytes : ByteArray) (packet : Packet),
      ofFrame compressors limit bytes = .ok packet →
        ∃ entries,
          (∀ others, headerSection bytes = packet.header.bytesWith others ↔ others = entries) ∧
          ∀ others, ReflTransGen Entries.Rearranges entries others →
            ofFrame compressors limit (withHeader bytes (packet.header.bytesWith others)) =
              .ok packet := by
  refine ⟨?_, fun compressors limit bytes packet ↦ ofFrame_rearranged⟩
  intro factory clock clock' options payload history others hlast htime
  have hbuild := Factory.build_annotate clock clock' hlast htime payload
  refine ⟨hbuild, fun packet packet' hpacket hpacket' ↦ ?_⟩
  rw [← hbuild, hpacket] at hpacket'
  obtain rfl := Except.ok.inj hpacket'
  refine ⟨rfl, fun key ↦ ?_, Entries.sorted_iff_increasing.mp packet.header.metadata.sorted,
    fun compressors wire ↦ ⟨rfl, fun frame ↦ headerSection_of_toFrame⟩⟩
  rw [Factory.metadata_of_build hpacket, PacketOptions.get?_annotate]

/-- Three annotations, two of one key, and the two that count; and a frame with the entries of the
three that opens to the same packet with the two that count, the other way round. -/
theorem metadata_unordered_relisted :
    let factory : Factory := ⟨⟨false, none⟩, StandardSerializer.default.serialize⟩
    let bytes := Prepared.bytes
      ⟨FramePrefix.version, none, labelled.header.bytesWith relisted, .empty⟩
    (factory.build (.ok 0) (.annotate .default relisted) (.text "é")).1 =
        (factory.build (.ok 1) (.annotate .default [("a", ""), ("b", "2")]) (.text "é")).1 ∧
      ofFrame .standard maxPayloadSize bytes = .ok labelled ∧
      ofFrame .standard maxPayloadSize
          (withHeader bytes (labelled.header.bytesWith [("b", "2"), ("a", "")])) =
        .ok labelled := by
  intro factory bytes
  obtain ⟨hbuilds, hframes⟩ := metadata_unordered
  have hdrop : Entries.Rearranges relisted [("a", ""), ("b", "2")] :=
    .drop [] "b" "1" [("a", ""), ("b", "2")] (by decide)
  have hswap : Entries.Rearranges [("a", ""), ("b", "2")] [("b", "2"), ("a", "")] :=
    .permute (by decide) (.swap _ _ _)
  have hbytes : ofFrame .standard maxPayloadSize bytes = .ok labelled :=
    ofFrame_eq_ok_iff_frames.mpr ⟨_, _, frames_labelled, rfl⟩
  obtain ⟨hbuild, -⟩ := hbuilds factory (.ok 0) (.ok 1) .default (.text "é") relisted _
    hdrop.last?_eq (.inr rfl)
  obtain ⟨entries, hentries, hopen⟩ := hframes .standard maxPayloadSize bytes labelled hbytes
  obtain rfl := (hentries relisted).mp (frames_labelled.headerSection_eq_iff.mpr rfl)
  exact ⟨congrArg Prod.fst hbuild, hbytes, hopen _ (.tail (.single hdrop) hswap)⟩

end Packet

end TypedPacket
