import TypedPacket.Schema.Basic

/-!
# Statuses

A serializer that rejects a payload says so with a status: a code with a fixed number and name, and a
message.
-/

set_option autoImplicit false
set_option relaxedAutoImplicit false

namespace TypedPacket

/-- The reasons for which a serializer rejects a payload. -/
inductive StatusCode
  | invalidArgument | resourceExhausted | failedPrecondition | internal | unimplemented
  deriving DecidableEq, Repr, Inhabited

namespace StatusCode

def all : List StatusCode :=
  [.invalidArgument, .resourceExhausted, .failedPrecondition, .internal, .unimplemented]

/-- The canonical number of a code. -/
def number : StatusCode → Nat
  | .invalidArgument => 3
  | .resourceExhausted => 8
  | .failedPrecondition => 9
  | .unimplemented => 12
  | .internal => 13

/-- The canonical name of a code. -/
def name : StatusCode → String
  | .invalidArgument => "INVALID_ARGUMENT"
  | .resourceExhausted => "RESOURCE_EXHAUSTED"
  | .failedPrecondition => "FAILED_PRECONDITION"
  | .internal => "INTERNAL"
  | .unimplemented => "UNIMPLEMENTED"

@[reducible] def choice : Choice :=
  ⟨"StatusCode",
    ["InvalidArgument", "ResourceExhausted", "FailedPrecondition", "Internal", "Unimplemented"]⟩

/-- The position of a code among the variants of `choice`. -/
def index : StatusCode → Fin choice.variants.length
  | .invalidArgument => ⟨0, by decide⟩
  | .resourceExhausted => ⟨1, by decide⟩
  | .failedPrecondition => ⟨2, by decide⟩
  | .internal => ⟨3, by decide⟩
  | .unimplemented => ⟨4, by decide⟩

def ofIndex (i : Fin choice.variants.length) : StatusCode :=
  match i.val with
  | 0 => .invalidArgument
  | 1 => .resourceExhausted
  | 2 => .failedPrecondition
  | 3 => .internal
  | _ => .unimplemented

@[simp] theorem ofIndex_index (code : StatusCode) : ofIndex code.index = code := by
  cases code <;> rfl

def variantName (code : StatusCode) : String := choice.variants[code.index]

end StatusCode

/-- Why a serializer rejects a payload. -/
structure Status where
  code : StatusCode
  message : String
  deriving DecidableEq, Repr

namespace Status

/-- The status in one line. -/
def line (status : Status) : String := status.code.name ++ ": " ++ status.message

@[reducible] def schema : Schema :=
  ⟨"Status", [⟨"code", .choice StatusCode.choice⟩, ⟨"message", .text⟩]⟩

def toRow (status : Status) : Row schema.fields := (status.code.index, status.message, ())

def ofRow : Row schema.fields → Status
  | (code, message, ()) => ⟨.ofIndex code, message⟩

@[simp] theorem ofRow_toRow (status : Status) : ofRow status.toRow = status := by
  simp [ofRow, toRow]

end Status

end TypedPacket
