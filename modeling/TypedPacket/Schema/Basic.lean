import TypedPacket.Schema.Mismatch
import TypedPacket.Text.Map

/-!
# Schemas

A schema describes a record once for all formats: its name and its fields, each with a type. The
values of a record are a `Row`, one value per field; a reader that meets the fields in any order fills
a `Draft`, where a field may still be open, and completes it at the end (`Draft.complete`). A draft
with every field filled completes to its row (`complete_filled`).
-/

set_option autoImplicit false
set_option relaxedAutoImplicit false

namespace TypedPacket

/-- The widths of the unsigned words in records. -/
inductive Width
  | w32 | w64
  deriving DecidableEq, Repr

namespace Width

@[reducible] def bits : Width → Nat
  | .w32 => 32
  | .w64 => 64

/-- The number of octets. -/
def size : Width → Nat
  | .w32 => 4
  | .w64 => 8

/-- The name of the width in messages. -/
def name : Width → String
  | .w32 => "u32"
  | .w64 => "u64"

end Width

/-- The names of an enumeration and of its variants. -/
structure Choice where
  name : String
  variants : List String
  deriving DecidableEq, Repr

/-- The type of a field. -/
inductive FieldType
  | word (width : Width)
  | text
  | optionalText
  | blob
  | choice (among : Choice)
  | textMap
  deriving DecidableEq, Repr

/-- The values of a field type. A choice is the index of its variant. -/
@[reducible] def FieldType.Val : FieldType → Type
  | .word width => BitVec width.bits
  | .text => String
  | .optionalText => Option String
  | .blob => ByteArray
  | .choice among => Fin among.variants.length
  | .textMap => TextMap

structure Field where
  name : String
  type : FieldType
  deriving DecidableEq, Repr

/-- A record: its name and its fields in order. -/
structure Schema where
  name : String
  fields : List Field
  deriving DecidableEq, Repr

namespace Schema

/-- What a reader expects where a record should stand. -/
def expectation (schema : Schema) : String := "struct " ++ schema.name

/-- What a reader expects of a record written as a list. -/
def lengthExpectation (schema : Schema) : String :=
  schema.expectation ++ " with " ++ toString schema.fields.length ++ " elements"

end Schema

/-- One value per field. -/
@[reducible] def Row : List Field → Type
  | [] => Unit
  | field :: rest => field.type.Val × Row rest

/-- The fields read so far. -/
@[reducible] def Draft : List Field → Type
  | [] => Unit
  | field :: rest => Option field.type.Val × Draft rest

namespace Draft

/-- Nothing has been read. -/
def blank : (fields : List Field) → Draft fields
  | [] => ()
  | _ :: rest => (none, blank rest)

/-- Every field has been read. -/
def filled : {fields : List Field} → Row fields → Draft fields
  | [], _ => ()
  | _ :: _, (value, rest) => (some value, filled rest)

/-- The value of a field that was never met: only a text that may be absent has one. -/
def absent : (type : FieldType) → Option type.Val
  | .optionalText => some (none : Option String)
  | _ => none

/-- The row, or the first field in order that is missing. -/
def complete : {fields : List Field} → Draft fields → Except Mismatch (Row fields)
  | [], _ => .ok ()
  | field :: _, (value, rest) =>
    match value.or (absent field.type) with
    | none => .error (.missingField field.name)
    | some value => (complete rest).map fun row => (value, row)

theorem complete_filled : {fields : List Field} → (row : Row fields) →
    complete (filled row) = .ok row
  | [], _ => rfl
  | _ :: _, (_, rest) => by simp [complete, filled, complete_filled rest, Except.map]

/-- Reads the value of the named field into the draft. Gives none for a name that is not a field's;
a field that was already read is refused with what `again` makes of it. -/
def assign {ε ρ : Type} (again : Mismatch → ε) (read : (type : FieldType) → Except ε (type.Val × ρ))
    (name : String) :
    {fields : List Field} → Draft fields → Option (Except ε (Draft fields × ρ))
  | [], _ => none
  | field :: _, (value, rest) =>
    if field.name = name then
      match value with
      | some _ => some (.error (again (.duplicateField name)))
      | none => some ((read field.type).map fun (value, after) => ((some value, rest), after))
    else
      (assign again read name rest).map fun outcome =>
        outcome.map fun (rest, after) => ((value, rest), after)

end Draft

end TypedPacket
