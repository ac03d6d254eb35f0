import TypedPacket.Config.Level

/-!
# Filters on log events

A filter is a list of directives, each of which says up to which level the events are logged whose
target starts as it says. The directive with the longest start decides, and of those with the same one
the last; without any, an event is kept out.
-/

set_option autoImplicit false
set_option relaxedAutoImplicit false

namespace TypedPacket

/-- What is logged of the events whose target starts with `start`: nothing, or those up to a level. -/
structure Directive where
  start : String
  upTo : Option LogLevel
  deriving DecidableEq, Repr

namespace Directive

def appliesTo (directive : Directive) (target : String) : Bool :=
  directive.start.toList.isPrefixOf target.toList

/-- The level of a directive: a level, or none to keep everything out. -/
def levelOf? (words : String) : Option (Option LogLevel) :=
  if words.map Char.toLower = "off" ∨ Size.ofText? words.toList = some 0 then some none
  else (LogLevel.ofText? words).map some

def isTargetChar (c : Char) : Bool := c.isAlphanum || c = '_' || c = ':' || c = '-'

/-- A directive is a level, a target, or a target with a level behind an equals sign. A target alone
lets everything through. -/
def ofText? (words : String) : Option Directive :=
  let target := words.toList.takeWhile (· ≠ '=')
  let isTarget := !target.isEmpty && target.all isTargetChar
  match words.toList.drop target.length with
  | [] =>
    match levelOf? words with
    | some upTo => some ⟨"", upTo⟩
    | none => if isTarget then some ⟨words, some .trace⟩ else none
  | _ :: level => do
    let upTo ← if level.isEmpty then some (some .trace) else levelOf? (String.ofList level)
    if isTarget then some ⟨String.ofList target, upTo⟩ else none

end Directive

structure Filter where
  directives : List Directive
  deriving DecidableEq, Repr

namespace Filter

/-- Everything up to a level is logged. -/
def upTo (level : LogLevel) : Filter := ⟨[⟨"", some level⟩]⟩

/-- Directives set apart by commas; without any, errors alone are logged. -/
def ofText? (words : String) : Option Filter := do
  let parts := (words.splitOn ",").filter (· ≠ "")
  let directives ← parts.mapM Directive.ofText?
  some (if directives.isEmpty then upTo .error else ⟨directives⟩)

/-- The more telling of two directives; of two that tell as much, the second. -/
def prefer (first : Option Directive) (second : Directive) : Option Directive :=
  match first with
  | none => some second
  | some first => if second.start.length < first.start.length then some first else some second

/-- The directive that decides on a target. -/
def deciding? (filter : Filter) (target : String) : Option Directive :=
  (filter.directives.filter fun directive => directive.appliesTo target).foldl prefer none

/-- Whether an event of this level and target is logged. -/
def admits (filter : Filter) (level : LogLevel) (target : String) : Bool :=
  match filter.deciding? target with
  | some ⟨_, some upTo⟩ => level.rank ≤ upTo.rank
  | _ => false

end Filter

end TypedPacket
