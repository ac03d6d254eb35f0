import TypedPacket.Toml.Scalar
import TypedPacket.Toml.Text

/-!
# Statements

A document is a sequence of statements, one a line: a key gets a value, a table begins, or one more
of the tables that share a header begins. What the statements amount to is up to `Document`; a table
in braces is built here by the same rule for keys (`Entries.assign`).
-/

set_option autoImplicit false
set_option relaxedAutoImplicit false

namespace TypedPacket.Toml

/-! ### Keys -/

/-- A name and those of the tables around it, from the outermost. -/
structure Key where
  parents : List String
  name : String
  deriving DecidableEq, Repr

namespace Key

def isBare (c : Char) : Bool := c.isAlphanum || c = '_' || c = '-'

/-- Reads a single name. -/
def readName : Reader String
  | [] => none
  | c :: rest =>
    if c = '"' ∨ c = '\'' then lineText (c :: rest)
    else if isBare c then
      some (String.ofList (c :: rest.takeWhile isBare), rest.dropWhile isBare)
    else none

/-- Reads at most so many names, set apart by dots. -/
def readUpTo : (count : Nat) → Reader Key
  | 0, _ => none
  | count + 1, input => do
    let (name, rest) ← readName input
    match skipSpace rest with
    | '.' :: after =>
      let (key, rest) ← readUpTo count (skipSpace after)
      some (⟨name :: key.parents, key.name⟩, rest)
    | _ => some (⟨[], name⟩, rest)

/-- The names of a key are fewer than so many, and so are the containers around a value. -/
def limit : Nat := 80

def read : Reader Key := readUpTo (limit - 1)

end Key

/-! ### Tables on the way to a key -/

namespace Entries

/-- Changes the value of a name, or adds the name at the end. -/
def alter (name : String) (change : Option Value → Option Value) : Entries → Option Entries
  | [] => (change none).map fun value => [(name, value)]
  | (other, value) :: rest =>
    if other = name then (change (some value)).map fun value => (other, value) :: rest
    else (alter name change rest).map ((other, value) :: ·)

/-- Adds a name that is new. -/
def put (name : String) (value : Value) : Entries → Option Entries :=
  alter name fun | none => some value | some _ => none

/-- How a table is named on the way to another: in a header, or in a key with dots. -/
inductive Way
  | header | dotted
  deriving DecidableEq, Repr

namespace Way

/-- The origin of the tables that are added on the way. -/
def origin : Way → Origin
  | .header => .implied
  | .dotted => .dotted

/-- Whether the way leads through a table, or ends in it. Braces are never added to; a key with dots
adds to no table that has a header, and ends only in tables named by such keys. -/
def enters (way : Way) (ends : Bool) : Origin → Bool
  | .braces => false
  | .dotted => true
  | .header => way = .header
  | .implied => way = .header || !ends

end Way

/-- Changes the last of the elements. -/
def alterLast (change : Entries → Option Entries) :
    List (List (String × Value)) → Option (List (List (String × Value)))
  | [] => none
  | [entries] => (change entries).map ([·])
  | entries :: rest => (alterLast change rest).map (entries :: ·)

/-- Changes the table at the end of a path. Tables that are not there are added. -/
def within (way : Way) : List String → (Entries → Option Entries) → Entries → Option Entries
  | [], change, entries => change entries
  | name :: path, change, entries =>
    entries.alter name fun
      | none => (within way path change []).map (Value.table way.origin)
      | some (.table origin inner) =>
        if way.enters path.isEmpty origin then
          (within way path change inner).map (Value.table origin)
        else none
      | some (.tables elements) =>
        if way = .dotted ∧ path.isEmpty then none
        else (alterLast (within way path change) elements).map Value.tables
      | some _ => none

/-- Gives a value to a key that has none. -/
def assign (key : Key) (value : Value) : Entries → Option Entries :=
  within .dotted key.parents (put key.name value)

end Entries

/-! ### Values -/

/-- Reads a key and its value. -/
def assignment (value : Reader Value) : Reader (Key × Value) := fun input => do
  let (key, rest) ← Key.read input
  match skipSpace rest with
  | '=' :: rest =>
    let (content, rest) ← value (skipSpace rest)
    some ((key, content), rest)
  | _ => none

/-- Reads the elements of a list after its bracket. Every turn takes a character, so the length of
the input bounds the turns. -/
def elements (value : Reader Value) (turns : Nat) : Reader (List Value) := fun input =>
  match turns with
  | 0 => none
  | turns + 1 =>
    match skipLines false input with
    | ']' :: rest => some ([], rest)
    | input => do
      let (item, rest) ← value input
      match skipLines false rest with
      | ',' :: rest =>
        let (items, rest) ← elements value turns rest
        some (item :: items, rest)
      | ']' :: rest => some ([item], rest)
      | _ => none

/-- Reads the entries of a table in braces into `sofar`, at least one. -/
def braced (value : Reader Value) (turns : Nat) (sofar : Entries) : Reader Entries := fun input =>
  match turns with
  | 0 => none
  | turns + 1 => do
    let ((key, content), rest) ← assignment value (skipSpace input)
    let entries ← sofar.assign key content
    match skipSpace rest with
    | ',' :: rest => braced value turns entries rest
    | '}' :: rest => some (entries, rest)
    | _ => none

/-- Reads a value inside which containers may be nested below `depth`. -/
def value : (depth : Nat) → Reader Value
  | 0, _ => none
  | depth + 1, input =>
    match input with
    | [] => none
    | c :: rest =>
      if c = '"' ∨ c = '\'' then (text input).map fun (words, rest) => (.text words, rest)
      else if c = '[' then
        if depth = 0 then none
        else (elements (value depth) (rest.length + 1) rest).map fun (items, rest) =>
          (.list items, rest)
      else if c = '{' then
        if depth = 0 then none
        else match skipSpace rest with
          | '}' :: rest => some (.table .braces [], rest)
          | _ => (braced (value depth) (rest.length + 1) [] rest).map fun (entries, rest) =>
            (.table .braces entries, rest)
      else scalar input

/-! ### Statements -/

inductive Statement
  /-- A key gets a value in the table that has begun. -/
  | assign (key : Key) (value : Value)
  /-- A table begins. -/
  | table (key : Key)
  /-- One more of the tables that share a header begins. -/
  | element (key : Key)
  deriving Repr

namespace Statement

/-- Takes the given characters. -/
def after? (expected : List Char) (input : List Char) : Option (List Char) :=
  if expected.isPrefixOf input then some (input.drop expected.length) else none

/-- Reads a key in brackets, after those that open. -/
def header (closing : List Char) : Reader Key := fun input => do
  let (key, rest) ← Key.read (skipSpace input)
  let rest ← after? closing (skipSpace rest)
  some (key, rest)

/-- Reads a statement, to the end of its line. -/
def read : Reader Statement := fun input => do
  let (statement, rest) ← match input with
    | '[' :: '[' :: rest => (header [']', ']'] rest).map fun (key, rest) => (element key, rest)
    | '[' :: rest => (header [']'] rest).map fun (key, rest) => (table key, rest)
    | input => (assignment (value Key.limit) input).map fun ((key, content), rest) =>
      (assign key content, rest)
  let rest ← afterLine? rest
  some (statement, rest)

/-- Reads statements to the end of the text. Every turn takes a character, so the length of the input
bounds the turns. -/
def readAll (turns : Nat) (input : List Char) : Option (List Statement) :=
  match turns with
  | 0 => none
  | turns + 1 =>
    match skipLines false input with
    | [] => some []
    | input => do
      let (statement, rest) ← read input
      let statements ← readAll turns rest
      some (statement :: statements)

end Statement

end TypedPacket.Toml
