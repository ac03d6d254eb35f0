import TypedPacket.Toml.Statement

/-!
# Documents

The entries that a sequence of statements amounts to. A table may begin only once, though it may have
been named before on the way to another; then it moves to the end of the entries around it. A text
whose statements cannot be read or carried out is no document.
-/

set_option autoImplicit false
set_option relaxedAutoImplicit false

namespace TypedPacket.Toml

namespace Entries

def get? (name : String) (entries : Entries) : Option Value := entries.lookup name

def erase (name : String) (entries : Entries) : Entries :=
  entries.filter fun entry => entry.1 ≠ name

/-- Begins a table. -/
def beginTable (name : String) (entries : Entries) : Option Entries :=
  match entries.get? name with
  | none => some (entries ++ [(name, .table .header [])])
  | some (.table .implied inner) => some (entries.erase name ++ [(name, .table .header inner)])
  | some _ => none

/-- Begins one more of the tables that share a header. -/
def beginElement (name : String) : Entries → Option Entries :=
  alter name fun
    | none => some (.tables [[]])
    | some (.tables elements) => some (.tables (elements ++ [[]]))
    | some _ => none

end Entries

/-- The entries so far, and the path of the table that has begun. -/
structure Draft where
  entries : Entries
  place : List String
  deriving Repr

namespace Draft

def blank : Draft := ⟨[], []⟩

def step (draft : Draft) : Statement → Option Draft
  | .assign key value =>
    (Entries.within .header draft.place (Entries.assign key value) draft.entries).map
      fun entries => ⟨entries, draft.place⟩
  | .table key =>
    (Entries.within .header key.parents (Entries.beginTable key.name) draft.entries).map
      fun entries => ⟨entries, key.parents ++ [key.name]⟩
  | .element key =>
    (Entries.within .header key.parents (Entries.beginElement key.name) draft.entries).map
      fun entries => ⟨entries, key.parents ++ [key.name]⟩

end Draft

/-- The entries of a document. A mark of the byte order may stand at the front. -/
def document? (input : String) : Option Entries := do
  let words := match input.toList with
    | '\uFEFF' :: rest => rest
    | words => words
  let statements ← Statement.readAll (words.length + 1) words
  let draft ← statements.foldlM Draft.step Draft.blank
  some draft.entries

end TypedPacket.Toml
