import TypedPacket.Schema.Mismatch
import TypedPacket.Text.Blank

/-!
# Documents that do not fit

Why a well-formed document is not the one that was wanted.
-/

set_option autoImplicit false
set_option relaxedAutoImplicit false

namespace TypedPacket.Toml

/-- Why a value does not fit. -/
inductive Misfit
  | mismatch (cause : Mismatch)
  /-- Neither of the two forms of a variant. -/
  | notVariant
  /-- A table in place of a variant has no entry, or more than one. -/
  | noEntry
  | manyEntries
  /-- The content of a variant is not empty. -/
  | notEmptyTable
  | notEmptyArray
  /-- The content of a variant is no container. -/
  | notTable (found : String)
  /-- No such log level. -/
  | level (text : String)
  deriving DecidableEq, Repr

def dialect : Dialect := ⟨"unit value", .plain⟩

def Misfit.message : Misfit → String
  | .mismatch cause => cause.message dialect
  | .notVariant => "wanted string or table"
  | .noEntry => "wanted exactly 1 element, found 0 elements"
  | .manyEntries => "wanted exactly 1 element, more than 1 element"
  | .notEmptyTable => "expected empty table"
  | .notEmptyArray => "expected empty array"
  | .notTable found => "expected table, found " ++ found
  | .level words => "Invalid log level: " ++ words

/-- The last line of a message, blanks at its end apart. -/
def lastLine (message : String) : String :=
  String.ofList ((Blank.trimEnd message.toList).reverse.takeWhile (· ≠ '\n')).reverse

end TypedPacket.Toml
