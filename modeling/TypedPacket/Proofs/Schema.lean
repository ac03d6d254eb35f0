import Mathlib.Data.List.Nodup
import TypedPacket.Schema.Basic

/-!
# What a format asks of records

A record can be told from what is written for it if the names in its schema are told apart
(`Schema.Distinct`). A format that announces lengths asks in addition that what has a length is
shorter than a bound (`Row.Within`).
-/

set_option autoImplicit false
set_option relaxedAutoImplicit false

namespace TypedPacket

/-- The number in a word of any width is below `2 ^ 64`. -/
theorem Width.toNat_lt {width : Width} (word : BitVec width.bits) : word.toNat < 2 ^ 64 :=
  Nat.lt_of_lt_of_le word.isLt
    (Nat.pow_le_pow_right (by decide) (by cases width <;> decide))

/-- The variants of a choice have different names. -/
def FieldType.Distinct : FieldType → Prop
  | .choice among => among.variants.Nodup
  | _ => True

instance : DecidablePred FieldType.Distinct := fun type ↦
  match type with
  | .choice among => inferInstanceAs (Decidable among.variants.Nodup)
  | .word _ | .text | .optionalText | .blob | .textMap => inferInstanceAs (Decidable True)

/-- Texts and octet strings have fewer octets than the bound, and maps fewer entries. -/
def FieldType.Within (bound : Nat) : (type : FieldType) → type.Val → Prop
  | .word _, _ => True
  | .text, words => words.toUTF8.size < bound
  | .optionalText, found => ∀ words ∈ found, words.toUTF8.size < bound
  | .blob, bytes => bytes.size < bound
  | .choice among, index => (among.variants.get index).toUTF8.size < bound
  | .textMap, map => map.entries.length < bound ∧
      ∀ entry ∈ map.entries, entry.1.toUTF8.size < bound ∧ entry.2.toUTF8.size < bound

instance (bound : Nat) : (type : FieldType) → DecidablePred (type.Within bound)
  | .word _ => fun _ ↦ inferInstanceAs (Decidable True)
  | .text => fun words ↦ inferInstanceAs (Decidable (words.toUTF8.size < bound))
  | .optionalText => fun found ↦
    inferInstanceAs (Decidable (∀ words ∈ found, words.toUTF8.size < bound))
  | .blob => fun bytes ↦ inferInstanceAs (Decidable (bytes.size < bound))
  | .choice among => fun index ↦
    inferInstanceAs (Decidable ((among.variants.get index).toUTF8.size < bound))
  | .textMap => fun map ↦ inferInstanceAs (Decidable (map.entries.length < bound ∧
      ∀ entry ∈ map.entries, entry.1.toUTF8.size < bound ∧ entry.2.toUTF8.size < bound))

/-- The values of all fields are within the bound. -/
def Row.Within (bound : Nat) : {fields : List Field} → Row fields → Prop
  | [], _ => True
  | field :: _, (content, row) => field.type.Within bound content ∧ Row.Within bound row

instance Row.decidableWithin (bound : Nat) :
    {fields : List Field} → DecidablePred (@Row.Within bound fields)
  | [], _ => inferInstanceAs (Decidable True)
  | field :: _, (content, row) =>
    have := decidableWithin bound row
    inferInstanceAs (Decidable (field.type.Within bound content ∧ Row.Within bound row))

/-- Fields and variants have different names. -/
structure Schema.Distinct (schema : Schema) : Prop where
  names : (schema.fields.map (·.name)).Nodup
  types : ∀ field ∈ schema.fields, field.type.Distinct

/-- A variant is found by its name. -/
theorem Choice.finIdxOf?_get {among : Choice} (hdistinct : among.variants.Nodup)
    (index : Fin among.variants.length) :
    among.variants.finIdxOf? (among.variants.get index) = some index := by
  refine List.finIdxOf?_eq_some_iff.mpr ⟨rfl, fun earlier hearlier hname ↦ ?_⟩
  exact absurd (hdistinct.injective_get hname) (Fin.ne_of_lt hearlier)

end TypedPacket
