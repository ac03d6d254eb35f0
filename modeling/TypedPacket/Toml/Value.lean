/-!
# Values of documents

A document is a table, and a table is a list of entries in the order in which they came. Whether a
table may still be added to depends on how it came to be (`Origin`).
-/

set_option autoImplicit false
set_option relaxedAutoImplicit false

namespace TypedPacket.Toml

/-- How a table came to be: it has a header of its own, it is named on the way to a table with a
header, it is named by a key with dots, or it is written out in braces. -/
inductive Origin
  | header | implied | dotted | braces
  deriving DecidableEq, Repr

inductive Value
  | text (value : String)
  | integer (value : Int)
  | double (bits : UInt64)
  | flag (value : Bool)
  /-- A date, a time of day, or both. Which it is does not matter to any reader. -/
  | moment
  | list (items : List Value)
  | table (origin : Origin) (entries : List (String × Value))
  /-- Tables that share a header, the last of which may still be added to. -/
  | tables (elements : List (List (String × Value)))
  deriving Repr

/-- The entries of a table. -/
abbrev Entries : Type := List (String × Value)

end TypedPacket.Toml
