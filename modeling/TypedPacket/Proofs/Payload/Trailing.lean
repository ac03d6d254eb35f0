import TypedPacket.Proofs.Payload

/-!
# Octets behind a payload

Images and structured values in MessagePack are read from the front of octets, and nobody asks what
is left behind them. So whatever follows octets that are read, they are read as the same payload
(`Payload.read_append_of_read`), while octets behind a header, a frame or a JSON text are refused.

What is taken of the octets is determined all the same: of an image the octets that it is written
as, of a value those up to its end, and no octets that are taken to the last are the front of others
that are (`Payload.Core`).
-/

set_option autoImplicit false
set_option relaxedAutoImplicit false

namespace TypedPacket.Payload

variable {kind : PayloadKind} {bytes : ByteArray} {payload : Payload}

/-- Octets of a payload of which none can be spared: they are read as it whatever follows them, and
no front of them but the whole is read at all. -/
structure Core (kind : PayloadKind) (core : ByteArray) (payload : Payload) : Prop where
  read_append : ∀ more, read kind (core ++ more) = .ok payload
  behind_eq : ∀ front behind other, core = front ++ behind → read kind front = .ok other →
    behind = .empty

theorem core_rawImage {image : RawImage} (hconsistent : image.isConsistent = true) :
    Core .rawImage (Encodable.write .fixedWidth image) (.rawImage image) where
  read_append more := read_eq_ok_iff.mpr ⟨rfl, .rawImage image more hconsistent⟩
  behind_eq := by
    intro front behind other heq hread
    obtain ⟨hkind, hheld⟩ := read_eq_ok_iff.mp hread
    cases hheld with
    | rawImage found padding hfound =>
      -- Both images are read from the front of the same octets.
      have hrow := congrArg (FixedWidth.readRow RawImage.schema.fields) heq
      have hwhole := RawImage.readRow_append (RawImage.size_data_lt hconsistent) .empty
      have hfront := RawImage.readRow_append (RawImage.size_data_lt hfound) (padding ++ behind)
      rw [ByteArray.append_empty] at hwhole
      rw [← ByteArray.append_assoc] at hfront
      have hrest : ByteArray.empty = padding ++ behind :=
        (Prod.mk.inj (Except.ok.inj (hwhole.symm.trans (hrow.trans hfront)))).2
      have hoctets := congrArg octets hrest
      rw [octets_append] at hoctets
      exact octets_inj.mp (List.append_eq_nil_iff.mp hoctets.symm).2
    | text | binary | struct => cases hkind

/-- What is taken of a body in MessagePack, behind the tag. -/
theorem exists_core_messagePack {body : ByteArray} {value : Json.Value}
    (hread : Json.Value.decode .messagePack body = .ok value) :
    ∃ front padding, body = front ++ padding ∧
      Core .struct ([Encoding.messagePack.tag].toByteArray ++ front) (.struct value) := by
  obtain ⟨rest, hvalue⟩ := Json.Value.decode_messagePack_eq_ok_iff.mp hread
  have hdelimiting := MessagePack.selfDelimiting_value MessagePack.depthLimit
  obtain ⟨front, hbody, hfront⟩ := hdelimiting (octets body) value rest hvalue
  refine ⟨front.toByteArray, rest.toByteArray, ?_, ?_, ?_⟩
  · rw [← octets_inj, hbody, octets_append, octets_toByteArray, octets_toByteArray]
  · intro more
    rw [ByteArray.append_assoc]
    refine read_eq_ok_iff.mpr ⟨rfl, .struct .messagePack _ value ?_⟩
    refine Json.Value.decode_messagePack_eq_ok_iff.mpr ⟨octets more, ?_⟩
    rw [octets_append, octets_toByteArray]
    exact hfront (octets more)
  · intro first behind other heq hfirst
    obtain ⟨hkind, hheld⟩ := read_eq_ok_iff.mp hfirst
    cases hheld with
    | struct encoding part content hpart =>
      have hoctets := congrArg octets heq
      simp only [octets_append, octets_toByteArray, List.cons_append, List.cons.injEq] at hoctets
      obtain ⟨htag, rfl⟩ := hoctets
      obtain rfl := Encoding.tag_inj.mp htag
      obtain ⟨left, hcontent⟩ := Json.Value.decode_messagePack_eq_ok_iff.mp hpart
      have hwhole := hfront []
      rw [List.append_nil] at hwhole
      exact octets_inj.mp (hdelimiting.eq_nil_of_read hwhole hcontent)
    | text | binary | rawImage => cases hkind

/-- Assumes: octets that are read as an image, or as a structured value behind the tag of
MessagePack. With anything behind them they are read as the same payload. A front of them is the
core of the payload: for an image, the octets that it is written as. -/
theorem read_append_of_read (hread : read kind bytes = .ok payload)
    (hkind : kind = .rawImage ∨
      kind = .struct ∧ (octets bytes).head? = some Encoding.messagePack.tag) :
    (∀ more, read kind (bytes ++ more) = .ok payload) ∧
    ∃ core padding, bytes = core ++ padding ∧ Core kind core payload ∧
      ∀ image, payload = .rawImage image → core = Encodable.write .fixedWidth image := by
  have hcore : ∃ core padding, bytes = core ++ padding ∧ Core kind core payload ∧
      ∀ image, payload = .rawImage image → core = Encodable.write .fixedWidth image := by
    obtain ⟨rfl, hheld⟩ := read_eq_ok_iff.mp hread
    cases hheld with
    | rawImage image padding hconsistent =>
      refine ⟨_, padding, rfl, core_rawImage hconsistent, ?_⟩
      rintro _ ⟨⟩
      rfl
    | struct encoding body value hvalue =>
      have hhead := (hkind.resolve_left nofun).2
      rw [Encoding.head?_tagged] at hhead
      obtain rfl := Encoding.tag_inj.mp (Option.some.inj hhead)
      obtain ⟨front, padding, rfl, hfront⟩ := exists_core_messagePack hvalue
      exact ⟨_, padding, ByteArray.append_assoc.symm, hfront, nofun⟩
    | text | binary => rcases hkind with h | ⟨h, -⟩ <;> cases h
  refine ⟨fun more ↦ ?_, hcore⟩
  obtain ⟨core, padding, rfl, hfront, -⟩ := hcore
  rw [ByteArray.append_assoc]
  exact hfront.read_append (padding ++ more)

/-- A map in MessagePack that had an octet behind it, with another one. -/
theorem read_append_of_read_unusual :
    (octets unusualOctets).head? = some Encoding.messagePack.tag ∧
    read .struct unusualOctets = .ok (.struct unusualValue) ∧
    read .struct (unusualOctets ++ [0].toByteArray) = .ok (.struct unusualValue) ∧
    ∃ core padding, unusualOctets = core ++ padding ∧
      Core .struct core (.struct unusualValue) := by
  have hhead : (octets unusualOctets).head? = some Encoding.messagePack.tag := rfl
  have hread : read .struct unusualOctets = .ok (.struct unusualValue) := rfl
  obtain ⟨happend, core, padding, hbytes, hcore, -⟩ := read_append_of_read hread (.inr ⟨rfl, hhead⟩)
  exact ⟨hhead, hread, happend [0].toByteArray, core, padding, hbytes, hcore⟩

/-- An octet behind an image of one pixel, and one behind the null value in MessagePack, are not
refused. -/
theorem read_trailing :
    let pixel : RawImage := ⟨1, 1, .gray8, [7].toByteArray⟩
    read .rawImage (Encodable.write .fixedWidth pixel) = .ok (.rawImage pixel) ∧
    read .rawImage (Encodable.write .fixedWidth pixel ++ [0].toByteArray) = .ok (.rawImage pixel) ∧
    read .struct [3, 0xC0].toByteArray = .ok (.struct .null) ∧
    read .struct ([3, 0xC0].toByteArray ++ [0].toByteArray) = .ok (.struct .null) :=
  ⟨rfl, rfl, rfl, rfl⟩

end TypedPacket.Payload
