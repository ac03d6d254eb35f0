import TypedPacket.Number.Size

/-!
# Log levels

A level is named, or numbered from the gravest. A named level reads back (`ofText?_name`).
-/

set_option autoImplicit false
set_option relaxedAutoImplicit false

namespace TypedPacket

inductive LogLevel
  | error | warn | info | debug | trace
  deriving DecidableEq, Repr, Inhabited

namespace LogLevel

def all : List LogLevel := [.error, .warn, .info, .debug, .trace]

def name : LogLevel → String
  | .error => "error"
  | .warn => "warn"
  | .info => "info"
  | .debug => "debug"
  | .trace => "trace"

/-- The number of a level: the greater, the more is logged. -/
def rank : LogLevel → Nat
  | .error => 1
  | .warn => 2
  | .info => 3
  | .debug => 4
  | .trace => 5

/-- The level with the given number, or with the given name in any case. -/
def ofText? (words : String) : Option LogLevel :=
  match Size.ofText? words.toList with
  | some n => all.find? fun level => level.rank == n.toNat
  | none => all.find? fun level => level.name == words.map Char.toLower

theorem ofText?_name (level : LogLevel) : ofText? level.name = some level := by
  cases level <;> decide +kernel

end LogLevel

end TypedPacket
