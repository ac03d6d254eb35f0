import TypedPacket.Json.Value
import TypedPacket.Schema.Mismatch
import TypedPacket.Text.Utf8

/-!
# Reading MessagePack values

Every value starts with a head: a marker with the number or the length that belongs to it
(`Head.read`). Containers may be nested up to a limit. Of a map with a repeated key the last value
counts. Octets after the value are left to the caller.
-/

set_option autoImplicit false
set_option relaxedAutoImplicit false

namespace TypedPacket.MessagePack

/-- Why octets are not read. -/
inductive Fault
  /-- No marker is left. -/
  | markerCut
  /-- The octets end inside a number or a length. -/
  | numberCut
  /-- The octets end inside a text or an octet string. -/
  | bodyCut
  | reserved
  | tooDeep
  | wrongCount (expected : Nat)
  | badText (fault : Utf8.Fault)
  | mismatch (cause : Mismatch)
  deriving DecidableEq, Repr

def dialect : Dialect := ⟨"unit value", .plain⟩

def Fault.message : Fault → String
  | .markerCut => "IO error while reading marker: failed to fill whole buffer"
  | .numberCut => "IO error while reading data: failed to fill whole buffer"
  | .bodyCut => "IO error while reading data: unexpected end of file"
  | .reserved => "wrong msgpack marker Reserved"
  | .tooDeep => "depth limit exceeded"
  | .wrongCount expected => "array had incorrect length, expected " ++ toString expected
  | .badText fault => "string found to be invalid utf8: " ++ fault.message
  | .mismatch cause => cause.message dialect

/-- A reader takes octets from the front and leaves the rest. -/
abbrev Reader (α : Type) := List UInt8 → Except Fault (α × List UInt8)

def misfit {α : Type} (cause : Mismatch) : Except Fault α := .error (.mismatch cause)

/-- What a value starts with. Integers of the signed forms are kept apart from the unsigned ones. -/
inductive Head
  | nil
  | flag (value : Bool)
  | natural (value : Nat)
  | signed (value : Int)
  | double (bits : UInt64)
  | text (length : Nat)
  | octets (length : Nat)
  | list (count : Nat)
  | map (count : Nat)
  | extension (length : Nat)
  deriving DecidableEq, Repr

/-- Reads a number of so many octets, most significant first. -/
def numberOf (width : Nat) : Reader Nat := fun input =>
  let front := input.take width
  if front.length = width then .ok (ofBigEndian front, input.drop width) else .error .numberCut

/-- A number of so many octets read as a signed one. -/
def signedOf (width : Nat) (n : Nat) : Int :=
  if 2 * n < 256 ^ width then n else n - (256 : Int) ^ width

namespace Head

/-- A head whose number is read after the marker. -/
def numbered (width : Nat) (make : Nat → Head) : Reader Head := fun input => do
  let (n, rest) ← numberOf width input
  .ok (make n, rest)

/-- Reads a head. -/
def read : Reader Head
  | [] => .error .markerCut
  | marker :: rest =>
    if marker < 0x80 then .ok (.natural marker.toNat, rest)
    else if marker < 0x90 then .ok (.map (marker.toNat - 0x80), rest)
    else if marker < 0xA0 then .ok (.list (marker.toNat - 0x90), rest)
    else if marker < 0xC0 then .ok (.text (marker.toNat - 0xA0), rest)
    else match marker with
      | 0xC0 => .ok (.nil, rest)
      | 0xC1 => .error .reserved
      | 0xC2 => .ok (.flag false, rest)
      | 0xC3 => .ok (.flag true, rest)
      | 0xC4 => numbered 1 .octets rest
      | 0xC5 => numbered 2 .octets rest
      | 0xC6 => numbered 4 .octets rest
      | 0xC7 => numbered 1 .extension rest
      | 0xC8 => numbered 2 .extension rest
      | 0xC9 => numbered 4 .extension rest
      | 0xCA => numbered 4 (fun n => .double (Binary64.ofBinary32 (UInt32.ofNat n))) rest
      | 0xCB => numbered 8 (fun n => .double (UInt64.ofNat n)) rest
      | 0xCC => numbered 1 .natural rest
      | 0xCD => numbered 2 .natural rest
      | 0xCE => numbered 4 .natural rest
      | 0xCF => numbered 8 .natural rest
      | 0xD0 => numbered 1 (fun n => .signed (signedOf 1 n)) rest
      | 0xD1 => numbered 2 (fun n => .signed (signedOf 2 n)) rest
      | 0xD2 => numbered 4 (fun n => .signed (signedOf 4 n)) rest
      | 0xD3 => numbered 8 (fun n => .signed (signedOf 8 n)) rest
      | 0xD4 => .ok (.extension 1, rest)
      | 0xD5 => .ok (.extension 2, rest)
      | 0xD6 => .ok (.extension 4, rest)
      | 0xD7 => .ok (.extension 8, rest)
      | 0xD8 => .ok (.extension 16, rest)
      | 0xD9 => numbered 1 .text rest
      | 0xDA => numbered 2 .text rest
      | 0xDB => numbered 4 .text rest
      | 0xDC => numbered 2 .list rest
      | 0xDD => numbered 4 .list rest
      | 0xDE => numbered 2 .map rest
      | 0xDF => numbered 4 .map rest
      | marker => .ok (.signed (marker.toNat - 0x100), rest)

end Head

/-- Takes the octets of a text or an octet string. -/
def body (length : Nat) : Reader (List UInt8) := fun input =>
  let front := input.take length
  if front.length = length then .ok (front, input.drop length) else .error .bodyCut

/-- Reads the body of a text. -/
def textBody (length : Nat) : Reader String := fun input => do
  let (front, rest) ← body length input
  match Utf8.decode front.toByteArray with
  | .ok text => .ok (text, rest)
  | .error fault => .error (.badText fault)

/-- Tells what a head announces where something else was expected. A text and an octet string have to
be there in full first. -/
def unexpected {α : Type} (expected : String) (head : Head) (input : List UInt8) : Except Fault α :=
  match head with
  | .nil => misfit (.wrongType .unit expected)
  | .flag value => misfit (.wrongType (.flag value) expected)
  | .natural value => misfit (.wrongType (.integer value) expected)
  | .signed value => misfit (.wrongType (.integer value) expected)
  | .double bits => misfit (.wrongType (.double bits) expected)
  | .text length => do
    let (text, _) ← textBody length input
    misfit (.wrongType (.text text) expected)
  | .octets length => do
    let _ ← body length input
    misfit (.wrongType .octets expected)
  | .list _ => misfit (.wrongType .sequence expected)
  | .map _ => misfit (.wrongType .map expected)
  | .extension _ => misfit (.wrongType .wrapped expected)

/-- Reads a text; an octet string that is one will do. -/
def textWhere (expected : String) : Reader String := fun input => do
  let (head, rest) ← Head.read input
  match head with
  | .text length => textBody length rest
  | .octets length =>
    let (front, rest) ← body length rest
    match Utf8.decode front.toByteArray with
    | .ok text => .ok (text, rest)
    | .error _ => misfit (.wrongValue .octets expected)
  | head => unexpected expected head rest

/-- Reads the first key of a map: a text and nothing else. -/
def firstKey : Reader String := fun input => do
  let (head, rest) ← Head.read input
  match head with
  | .text length => textBody length rest
  | head => unexpected "a string key" head rest

/-- Reads so many values. -/
def items {α : Type} (item : Reader α) : (count : Nat) → List α → Reader (List α)
  | 0, sofar, input => .ok (sofar.reverse, input)
  | count + 1, sofar, input =>
    match item input with
    | .error fault => .error fault
    | .ok (value, rest) => items item count (value :: sofar) rest

/-- Reads so many entries, putting each into `sofar`. -/
def entries {α β : Type} (key : Reader String) (value : Reader α) (put : String → α → β → β) :
    (count : Nat) → β → Reader β
  | 0, sofar, input => .ok (sofar, input)
  | count + 1, sofar, input =>
    match key input with
    | .error fault => .error fault
    | .ok (name, rest) =>
      match value rest with
      | .error fault => .error fault
      | .ok (content, rest) => entries key value put count (put name content sofar) rest

/-- What is expected of a value. -/
def anyValue : String := "any valid JSON value"

/-- Reads a value inside which containers may be nested below `depth`. -/
def value : (depth : Nat) → Reader Json.Value
  | 0, _ => .error .tooDeep
  | depth + 1, input => do
    let (head, rest) ← Head.read input
    match head with
    | .nil => .ok (.null, rest)
    | .flag content => .ok (.flag content, rest)
    | .natural n => .ok (((Json.Number.integer? n).map .number).getD .null, rest)
    | .signed n => .ok (((Json.Number.integer? n).map .number).getD .null, rest)
    | .double bits => .ok (((Json.Number.double? bits).map .number).getD .null, rest)
    | .text length => do
      let (content, rest) ← textBody length rest
      .ok (.text content, rest)
    | .list count =>
      if depth = 0 then .error .tooDeep else do
        let (content, rest) ← items (value depth) count [] rest
        .ok (.list content, rest)
    | .map count =>
      if depth = 0 then .error .tooDeep else
        match count with
        | 0 => .ok (.object [], rest)
        | count + 1 => do
          let (key, rest) ← firstKey rest
          let (content, rest) ← value depth rest
          let (fields, rest) ←
            entries (textWhere "a string") (value depth) Entries.place count [(key, content)] rest
          .ok (.object fields, rest)
    | head => unexpected anyValue head rest

/-- Containers may be nested in fewer than so many. -/
def depthLimit : Nat := 1024

/-- The value at the front of the octets. -/
def readValue (input : List UInt8) : Except Fault Json.Value :=
  (value depthLimit input).map (·.1)

end TypedPacket.MessagePack
