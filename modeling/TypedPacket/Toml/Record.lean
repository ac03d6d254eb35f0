import TypedPacket.Schema.Basic
import TypedPacket.Toml.Misfit
import TypedPacket.Toml.Value

/-!
# Reading records

A record is read from a table, whose entries are taken as they come and may be absent or unknown, or
from a list of its fields in order. The fields are put one by one into a record that starts blank.
-/

set_option autoImplicit false
set_option relaxedAutoImplicit false

namespace TypedPacket.Toml

abbrev Fit (α : Type) : Type := Except Misfit α

namespace Value

/-- What a reader found in place of what it expected. -/
def found : Value → Found
  | .text value => .text value
  | .integer value => .integer value
  | .double bits => .double bits
  | .flag value => .flag value
  | .moment => .map
  | .list _ => .sequence
  | .table _ _ => .map
  | .tables _ => .sequence

/-- The type of a value that is no container. -/
def typeName : Value → String
  | .text _ => "string"
  | .integer _ => "integer"
  | .double _ => "float"
  | .flag _ => "boolean"
  | .moment => "datetime"
  | .list _ => "array"
  | .table _ _ => "table"
  | .tables _ => "array of tables"

def unexpected {α : Type} (value : Value) (expected : String) : Fit α :=
  .error (.mismatch (.wrongType value.found expected))

def asSize : Value → Fit UInt64
  | .integer n =>
    if 0 ≤ n then .ok (UInt64.ofNat n.toNat)
    else .error (.mismatch (.wrongValue (.integer n) "usize"))
  | value => value.unexpected "usize"

def asFlag : Value → Fit Bool
  | .flag value => .ok value
  | value => value.unexpected "a boolean"

def asText : Value → Fit String
  | .text value => .ok value
  | value => value.unexpected "a string"

/-- Refuses what is not an empty container. -/
def checkEmpty : Value → Fit Unit
  | .list [] | .tables [] | .table _ [] => .ok ()
  | .list _ | .table _ _ => .error .notEmptyTable
  | .tables _ => .error .notEmptyArray
  | value => .error (.notTable value.typeName)

/-- A choice is its name, or a table with its name alone and an empty container for it. -/
def asChoice {α : Type} (names : List String) (ofName? : String → Option α) : Value → Fit α
  | .text name => choose name
  | .table _ [] => .error .noEntry
  | .table _ [(name, content)] => do
    let chosen ← choose name
    content.checkEmpty
    .ok chosen
  | .table _ _ => .error .manyEntries
  | _ => .error .notVariant
where
  choose (name : String) : Fit α :=
    match ofName? name with
    | some chosen => .ok chosen
    | none => .error (.mismatch (.unknownVariant name names))

end Value

/-- A field of a record: its name, how its value is put into the record, and whether it may be
absent. -/
structure RecordField (ρ : Type) where
  name : String
  put : Value → ρ → Fit ρ
  optional : Bool

/-- A record: its name, its fields in order, and what it is before they are read. -/
structure RecordType (ρ : Type) where
  name : String
  fields : List (RecordField ρ)
  blank : ρ

namespace RecordType

variable {ρ : Type} (type : RecordType ρ)

def expectation : String := "struct " ++ type.name

/-- Puts an entry into a record, unless its name is unknown. -/
def putEntry (sofar : ρ) (entry : String × Value) : Fit ρ :=
  match type.fields.find? fun field => field.name == entry.1 with
  | some field => field.put entry.2 sofar
  | none => .ok sofar

/-- The first field that may not be absent, but is. -/
def missing? (entries : Entries) : Option (RecordField ρ) :=
  type.fields.find? fun field =>
    !field.optional && !entries.any fun entry => entry.1 == field.name

def ofEntries (entries : Entries) : Fit ρ := do
  let complete ← entries.foldlM type.putEntry type.blank
  match type.missing? entries with
  | some field => .error (.mismatch (.missingField field.name))
  | none => .ok complete

/-- Puts items into the fields from the `index`th on; items that are left are not looked at. -/
def putItems (index : Nat) (sofar : ρ) : List (RecordField ρ) → List Value → Fit ρ
  | [], _ => .ok sofar
  | field :: fields, [] =>
    if field.optional then putItems (index + 1) sofar fields []
    else
      let expected := type.expectation ++ " with " ++ toString type.fields.length ++ " elements"
      .error (.mismatch (.wrongLength index expected))
  | field :: fields, item :: items => do
    let sofar ← field.put item sofar
    putItems (index + 1) sofar fields items

/-- Reads a record from a value. -/
def read : Value → Fit ρ
  | .table _ entries => type.ofEntries entries
  | .moment => type.ofEntries []
  | .list items => type.putItems 0 type.blank type.fields items
  | .tables elements =>
    type.putItems 0 type.blank type.fields (elements.map (Value.table .header))
  | value => value.unexpected type.expectation

end RecordType

end TypedPacket.Toml
