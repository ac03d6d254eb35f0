import TypedPacket.Number.Shortest
import TypedPacket.Text.Quoted

/-!
# Well-formed data that does not fit

A reader that finds well-formed data of the wrong shape says what it found and what it expected. The
wording is the same for every format, up to a format's word for the value without content and its
way to write a number with a fraction (`Dialect`).
-/

set_option autoImplicit false
set_option relaxedAutoImplicit false

namespace TypedPacket

/-- What a reader found. -/
inductive Found
  | unit
  | flag (value : Bool)
  | integer (value : Int)
  | double (bits : UInt64)
  | text (value : String)
  | octets
  | sequence
  | map
  /-- A value in an application's own wrapping. -/
  | wrapped
  deriving DecidableEq, Repr

/-- Why well-formed data does not fit. -/
inductive Mismatch
  | wrongType (found : Found) (expected : String)
  | wrongValue (found : Found) (expected : String)
  | wrongLength (length : Nat) (expected : String)
  | unknownVariant (name : String) (variants : List String)
  | missingField (name : String)
  | duplicateField (name : String)
  deriving DecidableEq, Repr

/-- What a format may word in its own way. -/
structure Dialect where
  unit : String
  numbers : NumberStyle

def Found.message (dialect : Dialect) : Found → String
  | .unit => dialect.unit
  | .flag value => "boolean `" ++ (if value then "true" else "false") ++ "`"
  | .integer value => "integer `" ++ toString value ++ "`"
  | .double bits => "floating point `" ++ dialect.numbers.double bits ++ "`"
  | .text value => "string " ++ Quoted.quote value
  | .octets => "byte array"
  | .sequence => "sequence"
  | .map => "map"
  | .wrapped => "newtype struct"

/-- The names between backticks, as the choice that was open. -/
def alternatives (names : List String) : String :=
  let ticked := names.map fun name => "`" ++ name ++ "`"
  match ticked with
  | [] => "there are no variants"
  | [one] => "expected " ++ one
  | [one, two] => "expected " ++ one ++ " or " ++ two
  | many => "expected one of " ++ ", ".intercalate many

def Mismatch.message (dialect : Dialect) : Mismatch → String
  | .wrongType found expected =>
    "invalid type: " ++ found.message dialect ++ ", expected " ++ expected
  | .wrongValue found expected =>
    "invalid value: " ++ found.message dialect ++ ", expected " ++ expected
  | .wrongLength length expected =>
    "invalid length " ++ toString length ++ ", expected " ++ expected
  | .unknownVariant name variants => "unknown variant `" ++ name ++ "`, " ++ alternatives variants
  | .missingField name => "missing field `" ++ name ++ "`"
  | .duplicateField name => "duplicate field `" ++ name ++ "`"

end TypedPacket
