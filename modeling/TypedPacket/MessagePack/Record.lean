import TypedPacket.MessagePack.Reader
import TypedPacket.Schema.Basic

/-!
# Records in MessagePack

A record is read from a list of its values in order or from a map whose keys name its fields, by
name or by index. Fields with other keys are skipped.
-/

set_option autoImplicit false
set_option relaxedAutoImplicit false

namespace TypedPacket.MessagePack

/-- Takes a value that nobody needs, inside which containers may be nested below `depth`. -/
def skip : (depth : Nat) → Reader Unit
  | 0, _ => .error .tooDeep
  | depth + 1, input => do
    let (head, rest) ← Head.read input
    match head with
    | .text length => do
      let (_, rest) ← body length rest
      .ok ((), rest)
    | .octets length => do
      let (_, rest) ← body length rest
      .ok ((), rest)
    | .extension length => do
      let (_, rest) ← numberOf 1 rest
      let (_, rest) ← body length rest
      .ok ((), rest)
    | .list count =>
      if depth = 0 then .error .tooDeep else do
        let (_, rest) ← items (skip depth) count [] rest
        .ok ((), rest)
    | .map count =>
      if depth = 0 then .error .tooDeep else do
        let (_, rest) ← items (skip depth) (2 * count) [] rest
        .ok ((), rest)
    | _ => .ok ((), rest)

/-- Reads a natural number below `bound`. -/
def natural (bound : Nat) (expected : String) : Reader Nat := fun input => do
  let (head, rest) ← Head.read input
  let within (n : Int) : Except Fault (Nat × List UInt8) :=
    if 0 ≤ n ∧ n < bound then .ok (n.toNat, rest)
    else misfit (.wrongValue (.integer n) expected)
  match head with
  | .natural n => within n
  | .signed n => within n
  | head => unexpected expected head rest

def textField : Reader String := textWhere "a string"

/-- Reads a text or a nil. -/
def optionalText : Reader (Option String) := fun input =>
  match Head.read input with
  | .ok (.nil, rest) => .ok (none, rest)
  | _ => do
    let (content, rest) ← textField input
    .ok (some content, rest)

/-- Reads a list of numbers, or an octet string, as octets. -/
def blob : Reader ByteArray := fun input => do
  let (head, rest) ← Head.read input
  match head with
  | .list count =>
    let (content, rest) ← items (natural 256 "u8") count [] rest
    .ok ((content.map UInt8.ofNat).toByteArray, rest)
  | .octets length =>
    let (content, rest) ← body length rest
    .ok (content.toByteArray, rest)
  | head => unexpected "a sequence" head rest

/-- Reads a map of texts. -/
def textMap : Reader TextMap := fun input => do
  let (head, rest) ← Head.read input
  match head with
  | .map count =>
    entries textField textField (fun key content map => map.insert key content) count .empty rest
  | head => unexpected "a map" head rest

/-- The variant of a name. -/
def variantNamed (among : Choice) (name : String) : Except Fault (Fin among.variants.length) :=
  match among.variants.finIdxOf? name with
  | some index => .ok index
  | none => misfit (.unknownVariant name among.variants)

/-- Reads a variant after its head: its name or its index. -/
def variant (among : Choice) (head : Head) : Reader (Fin among.variants.length) := fun input =>
  match head with
  | .text length => do
    let (name, rest) ← textBody length input
    .ok (← variantNamed among name, rest)
  | .octets length => do
    let (front, rest) ← body length input
    let name := match Utf8.decode (Utf8.lossy 0 [] front).toByteArray with
      | .ok name => name
      | .error _ => ""
    .ok (← variantNamed among name, rest)
  | .natural n =>
    if h : n < among.variants.length then .ok (⟨n, h⟩, input)
    else misfit (.wrongValue (.integer n)
      ("variant index 0 <= i < " ++ toString among.variants.length))
  | head => unexpected "variant identifier" head input

/-- Reads a variant, or a map with it as the only key, over nil. -/
def choice (among : Choice) : Reader (Fin among.variants.length) := fun input => do
  let (head, rest) ← Head.read input
  match head with
  | .map 1 =>
    let (head, rest) ← Head.read rest
    let (index, rest) ← variant among head rest
    let (head, rest) ← Head.read rest
    match head with
    | .nil => .ok (index, rest)
    | head => unexpected "unit" head rest
  | .map count => .error (.wrongCount count)
  | head => variant among head rest

/-- Reads a field of a type. -/
def field : (type : FieldType) → Reader type.Val
  | .word width => fun input => do
    let (n, rest) ← natural (2 ^ width.bits) width.name input
    .ok (BitVec.ofNat _ n, rest)
  | .text => textField
  | .optionalText => optionalText
  | .blob => blob
  | .choice among => choice among
  | .textMap => textMap

/-- Reads the key of a field; none for a key that names no field. -/
def fieldKey (fields : List Field) : Reader (Option String) := fun input => do
  let (head, rest) ← Head.read input
  let named (front : List UInt8) : Option String :=
    match Utf8.decode front.toByteArray with
    | .ok name => some name
    | .error _ => none
  match head with
  | .text length =>
    let (front, rest) ← body length rest
    .ok (named front, rest)
  | .octets length =>
    let (front, rest) ← body length rest
    .ok (named front, rest)
  | .natural n => .ok ((fields[n]?).map (·.name), rest)
  | head => unexpected "field identifier" head rest

/-- Reads the fields of a record in order; `count` values are left, `index` are read. -/
def listed (expected : String) (index count : Nat) :
    (fields : List Field) → Reader (Row fields)
  | [], input => if count = 0 then .ok ((), input) else .error (.wrongCount index)
  | f :: fields, input =>
    match count with
    | 0 => misfit (.wrongLength index expected)
    | count + 1 => do
      let (content, rest) ← field f.type input
      let (row, rest) ← listed expected (index + 1) count fields rest
      .ok ((content, row), rest)

/-- Reads so many fields of a record by key. -/
def named {fields : List Field} : (count : Nat) → Draft fields → Reader (Row fields)
  | 0, draft, input =>
    match draft.complete with
    | .ok row => .ok (row, input)
    | .error cause => misfit cause
  | count + 1, draft, input => do
    let (key, rest) ← fieldKey fields input
    let known := key.bind fun name =>
      draft.assign Fault.mismatch (fun type => field type rest) name
    match known with
    | some outcome => do
      let (draft, rest) ← outcome
      named count draft rest
    | none => do
      let ((), rest) ← skip (depthLimit - 1) rest
      named count draft rest

/-- Reads a record. -/
def record (schema : Schema) : Reader (Row schema.fields) := fun input => do
  let (head, rest) ← Head.read input
  match head with
  | .list count => listed schema.lengthExpectation 0 count schema.fields rest
  | .map count => named count (Draft.blank schema.fields) rest
  | head => unexpected schema.expectation head rest

end TypedPacket.MessagePack
