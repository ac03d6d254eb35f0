import TypedPacket.Config.Level
import TypedPacket.Metrics

/-!
# Log events

What notices and counters have to say in a log. An event belongs to a target, and may have happened
inside a span, which says what was being done.
-/

set_option autoImplicit false
set_option relaxedAutoImplicit false

namespace TypedPacket

/-- The value of a field of an event. -/
inductive LogValue
  | number (value : UInt64)
  | text (value : String)
  deriving DecidableEq, Repr

/-- Something that takes a while, with events inside it. -/
structure LogSpan where
  name : String
  level : LogLevel
  target : String
  fields : List (String × LogValue)
  deriving DecidableEq, Repr

structure LogEvent where
  level : LogLevel
  target : String
  message : String
  fields : List (String × LogValue)
  span : Option LogSpan
  deriving DecidableEq, Repr

/-! ### Targets -/

def factoryTarget : String := "stream_packet::factory"
def codecTarget : String := "stream_packet::core::codec"
def metricsTarget : String := "stream_packet::utils::metrics"
def loggingTarget : String := "stream_packet::utils::logging"

/-! ### Events -/

namespace LogEvent

/-- The span of a payload that is being built. -/
def building (kind : PayloadKind) : LogSpan :=
  ⟨"build_payload", .debug, factoryTarget, [("kind", .text kind.typeClass)]⟩

def count (n : Nat) : LogValue := .number (UInt64.ofNat n)

/-- What is logged of a notice. -/
def ofNotice? : Notice → Option LogEvent
  | .built kind size =>
    some ⟨.debug, factoryTarget, "Built packet", [("bytes", count size)], some (building kind)⟩
  | .foreignType error =>
    some ⟨.warn, factoryTarget, "Rejected payload", [("error", .text error.message)], none⟩
  | .rejected kind status =>
    some ⟨.warn, factoryTarget, "Serializer rejected payload", [("status", .text status.line)],
      some (building kind)⟩
  | .decoded kind size =>
    some ⟨.trace, codecTarget, "Decoded packet",
      [("kind", .text kind.typeClass), ("bytes", count size)], none⟩
  | .undecodable error buffered =>
    some ⟨.warn, codecTarget, "Rejected inbound frame",
      [("error", .text error.message), ("buffered", count buffered)], none⟩
  | .kindChanged | .encoded _ _ => none

/-- The counters at some time. -/
def snapshot (metrics : Metrics) : LogEvent :=
  ⟨.info, metricsTarget, "Packet metrics snapshot",
    metrics.named.map fun (name, value) => (name, .number value), none⟩

/-- The first event of a log. -/
def started (appName : String) : LogEvent :=
  ⟨.info, loggingTarget, "Logging initialized", [("app", .text appName)], none⟩

end LogEvent

end TypedPacket
