import TypedPacket.Json.Reader
import TypedPacket.Schema.Basic

/-!
# Records in JSON

A record is written as an object of its fields in order, and read from an object whose fields stand
in any order or from a list of the values in order. Fields with other names are skipped. A field of
the wrong type stops the reader behind what it found there, or before it if that is a container; a
record with a field missing or repeated stops it behind the record, as far as that is closed.
-/

set_option autoImplicit false
set_option relaxedAutoImplicit false

namespace TypedPacket.Json

/-! ### Reading -/

/-- Tells what stands where something else was expected. -/
def unexpected {α : Type} (expected : String) (input : List UInt8) : Except Stop α :=
  match skipBlank input with
  | [] => stop .endInValue []
  | octet :: rest =>
    if octet = 0x6E then do
      let ((), rest) ← word nullTail rest
      misfit (.wrongType .unit expected) rest
    else if octet = 0x74 then do
      let ((), rest) ← word trueTail rest
      misfit (.wrongType (.flag true) expected) rest
    else if octet = 0x66 then do
      let ((), rest) ← word falseTail rest
      misfit (.wrongType (.flag false) expected) rest
    else if octet = 0x2D ∨ isDigit octet then do
      let (n, rest) ← if octet = 0x2D then number true rest else number false (octet :: rest)
      match n with
      | .integer value _ => misfit (.wrongType (.integer value) expected) rest
      | .double bits _ => misfit (.wrongType (.double bits) expected) rest
    else if octet = 0x22 then do
      let (content, rest) ← text rest
      misfit (.wrongType (.text content) expected) rest
    else if octet = 0x5B then misfit (.wrongType .sequence expected) (octet :: rest)
    else if octet = 0x7B then misfit (.wrongType .map expected) (octet :: rest)
    else stop .expectedValue rest

/-- Reads a natural number below `bound`. -/
def natural (bound : Nat) (expected : String) : Reader Nat := fun input =>
  match skipBlank input with
  | [] => stop .endInValue []
  | octet :: rest =>
    if octet = 0x2D ∨ isDigit octet then do
      let (n, rest) ← if octet = 0x2D then number true rest else number false (octet :: rest)
      match n with
      | .integer value _ =>
        if 0 ≤ value ∧ value < bound then .ok (value.toNat, rest)
        else misfit (.wrongValue (.integer value) expected) rest
      | .double bits _ => misfit (.wrongType (.double bits) expected) rest
    else unexpected expected (octet :: rest)

/-- Reads a text where `expected` should stand. -/
def textWhere (expected : String) : Reader String := fun input =>
  match skipBlank input with
  | [] => stop .endInValue []
  | octet :: rest => if octet = 0x22 then text rest else unexpected expected (octet :: rest)

def textField : Reader String := textWhere "a string"

/-- Reads a text or a null. -/
def optionalText : Reader (Option String) := fun input =>
  match skipBlank input with
  | [] => stop .endInValue []
  | octet :: rest =>
    if octet = 0x6E then do
      let ((), rest) ← word nullTail rest
      .ok (none, rest)
    else do
      let (content, rest) ← textField (octet :: rest)
      .ok (some content, rest)

/-- Reads the name of a variant. -/
def variantName (among : Choice) : Reader (Fin among.variants.length) := fun input => do
  let (name, rest) ← textWhere "variant identifier" input
  match among.variants.finIdxOf? name with
  | some index => .ok (index, rest)
  | none => misfit (.unknownVariant name among.variants) rest

/-- Reads a variant: its name, or an object with the name as its only key, over null. -/
def choice (among : Choice) : Reader (Fin among.variants.length) := fun input =>
  match skipBlank input with
  | [] => stop .endInValue []
  | octet :: rest =>
    if octet = 0x22 then variantName among (octet :: rest)
    else if octet = 0x7B then do
      let (index, rest) ← variantName among rest
      let rest ← colon rest
      let rest ← match skipBlank rest with
        | [] => stop .endInValue []
        | octet :: rest =>
          if octet = 0x6E then do
            let ((), rest) ← word nullTail rest
            .ok rest
          else unexpected "unit" (octet :: rest)
      match skipBlank rest with
      | [] => stop .endInObject []
      | octet :: rest =>
        if octet = 0x7D then .ok (index, rest) else stop .expectedValue (octet :: rest)
    else stop .expectedValue rest

/-- Reads a list of octets as numbers. -/
def blob : Reader ByteArray := fun input =>
  match skipBlank input with
  | [] => stop .endInValue []
  | octet :: rest =>
    if octet = 0x5B then do
      let (items, rest) ← listOf (natural 256 "u8") rest
      .ok ((items.map UInt8.ofNat).toByteArray, rest)
    else unexpected "a sequence" (octet :: rest)

/-- Reads an object of texts. -/
def textMap : Reader TextMap := fun input =>
  match skipBlank input with
  | [] => stop .endInValue []
  | octet :: rest =>
    if octet = 0x7B then
      objectOf textField (fun key content map => map.insert key content) TextMap.empty rest
    else unexpected "a map" (octet :: rest)

/-- Reads a field of a type. -/
def field : (type : FieldType) → Reader type.Val
  | .word width => fun input => do
    let (n, rest) ← natural (2 ^ width.bits) width.name input
    .ok (BitVec.ofNat _ n, rest)
  | .text => textField
  | .optionalText => optionalText
  | .blob => blob
  | .choice among => choice among
  | .textMap => textMap

/-- What is left of an object after an attempt to close it. -/
def afterObject (input : List UInt8) : List UInt8 :=
  match skipBlank input with
  | 0x7D :: rest => rest
  | rest => rest

/-- Closes a list whose elements are all read. -/
def closeList (input : List UInt8) : Except Stop (List UInt8) :=
  match skipBlank input with
  | [] => stop .endInList []
  | octet :: rest =>
    if octet = 0x5D then .ok rest
    else if octet = 0x2C then
      match skipBlank rest with
      | 0x5D :: rest => stop .trailingComma rest
      | rest => stopAt .trailingOctets rest
    else stop .trailingOctets rest

/-- Reads the fields of a record in order; `index` of them are read already. -/
def listed (expected : String) (index : Nat) : (fields : List Field) → Reader (Row fields)
  | [], input => .ok ((), input)
  | f :: fields, input =>
    match nextElement (index = 0) input with
    | .error s => .error s
    | .ok (false, rest) => misfit (.wrongLength index expected) rest
    | .ok (true, rest) => do
      let (content, rest) ← field f.type rest
      let (row, rest) ← listed expected (index + 1) fields rest
      .ok ((content, row), rest)

/-- Reads the fields of a record by name, after the brace. -/
def named {fields : List Field} (turns : Nat) (first : Bool) (draft : Draft fields)
    (input : List UInt8) : Except Stop (Row fields × List UInt8) :=
  match turns with
  | 0 => stop .endInObject []
  | turns + 1 =>
    match nextKey first input with
    | .error s => .error s
    | .ok (false, rest) =>
      match draft.complete with
      | .ok row => .ok (row, rest)
      | .error cause => misfit cause rest
    | .ok (true, rest) => do
      let (name, rest) ← text rest
      let again (cause : Mismatch) : Stop := ⟨.mismatch cause, afterObject rest⟩
      let content (type : FieldType) : Except Stop (type.Val × List UInt8) := do
        field type (← colon rest)
      match draft.assign again content name with
      | some outcome => do
        let (draft, rest) ← outcome
        named turns false draft rest
      | none => do
        let ((), rest) ← skipValue (← colon rest)
        named turns false draft rest

/-- Reads a record. -/
def record (schema : Schema) : Reader (Row schema.fields) := fun input =>
  match skipBlank input with
  | [] => stop .endInValue []
  | octet :: rest =>
    if octet = 0x5B then do
      let (row, rest) ← listed schema.lengthExpectation 0 schema.fields rest
      .ok (row, ← closeList rest)
    else if octet = 0x7B then named (rest.length + 1) true (Draft.blank schema.fields) rest
    else unexpected schema.expectation (octet :: rest)

/-! ### Writing -/

/-- Appends a list of octets as numbers. -/
def emitOctets (bytes : List UInt8) (out : ByteArray) : ByteArray :=
  match bytes with
  | [] => out
  | [octet] => out ++ (toString octet.toNat).toUTF8
  | octet :: next :: rest =>
    emitOctets (next :: rest) ((out ++ (toString octet.toNat).toUTF8).push 0x2C)

/-- Appends the value of a field. -/
def emitField : (type : FieldType) → type.Val → ByteArray → ByteArray
  | .word _, content, out => out ++ (toString content.toNat).toUTF8
  | .text, content, out => emitText content out
  | .optionalText, none, out => out ++ "null".toUTF8
  | .optionalText, some content, out => emitText content out
  | .blob, content, out => (emitOctets (octets content) (out.push 0x5B)).push 0x5D
  | .choice among, index, out => emitText (among.variants.get index) out
  | .textMap, map, out =>
    (emitFields (map.entries.map fun entry => (entry.1, .text entry.2)) (out.push 0x7B)).push 0x7D

/-- Appends the fields of a record with a comma before each but the first. -/
def emitRow (first : Bool) : (fields : List Field) → Row fields → ByteArray → ByteArray
  | [], _, out => out
  | f :: fields, (content, row), out =>
    let out := if first then out else out.push 0x2C
    emitRow false fields row (emitField f.type content ((emitText f.name out).push 0x3A))

/-- The compact text of a record. -/
def writeRecord (schema : Schema) (row : Row schema.fields) : ByteArray :=
  (emitRow true schema.fields row (ByteArray.empty.push 0x7B)).push 0x7D

end TypedPacket.Json
