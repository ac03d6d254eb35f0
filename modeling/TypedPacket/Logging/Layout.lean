import TypedPacket.Json.Value
import TypedPacket.Logging.Event

/-!
# Lines of a log

The three ways to set an event down on a line. Time and thread are left to who writes the line.
-/

set_option autoImplicit false
set_option relaxedAutoImplicit false

namespace TypedPacket

def LogLevel.label : LogLevel → String
  | .error => "ERROR"
  | .warn => "WARN"
  | .info => "INFO"
  | .debug => "DEBUG"
  | .trace => "TRACE"

namespace LogValue

def shown : LogValue → String
  | .number value => toString value.toNat
  | .text value => value

def toJson : LogValue → Json.Value
  | .number value => .number (.natural value)
  | .text value => .text value

end LogValue

inductive Layout
  /-- An object. -/
  | json
  /-- Text, with the fields of the span beside its name. -/
  | full
  /-- Text, with the fields of the span at the end. -/
  | compact
  deriving DecidableEq, Repr

namespace Layout

/-- Fields as `name=value`, with blanks between them. -/
def fieldsText (fields : List (String × LogValue)) : String :=
  " ".intercalate (fields.map fun (name, value) => name ++ "=" ++ value.shown)

def jsonFields (fields : List (String × LogValue)) : List (String × Json.Value) :=
  fields.map fun (name, value) => (name, value.toJson)

/-- An event inside the span, as an object. -/
def jsonOf (event : LogEvent) : Json.Value :=
  let span := event.span.toList.map fun span =>
    Json.Value.object (jsonFields span.fields ++ [("name", .text span.name)])
  .object ([("level", .text event.level.label),
      ("fields", .object (("message", .text event.message) :: jsonFields event.fields)),
      ("target", .text event.target)] ++
    span.flatMap fun value => [("span", value), ("spans", .list [value])])

/-- The line of an event. -/
def line (layout : Layout) (event : LogEvent) : ByteArray :=
  let message := event.target ++ ": " ++ event.message
  let fields (given : List (String × LogValue)) : String :=
    if given.isEmpty then "" else " " ++ fieldsText given
  let spanFields := event.span.toList.flatMap LogSpan.fields
  let spanName := event.span.elim "" LogSpan.name
  match layout with
  | .json => (jsonOf event).write
  | .full =>
    let span := if event.span.isNone then ""
      else spanName ++ "\x7b" ++ fieldsText spanFields ++ "\x7d: "
    (event.level.label ++ " " ++ span ++ message ++ fields event.fields).toUTF8
  | .compact =>
    let span := if event.span.isNone then "" else spanName ++ ": "
    (event.level.label ++ " " ++ span ++ message ++ fields (event.fields ++ spanFields)).toUTF8

end Layout

end TypedPacket
