import TypedPacket.Config.Validation
import TypedPacket.Logging.Filter
import TypedPacket.Logging.Layout

/-!
# Logs

A log is started once, by the logging section of a configuration; from then on events that pass its
filter go to the console, to a file, or to both. A span that the filter keeps out does not show on
the events inside it.
-/

set_option autoImplicit false
set_option relaxedAutoImplicit false

namespace TypedPacket

/-- Who receives events: what passes, and the layouts of the console and of the file. -/
structure LogReceiver where
  filter : Filter
  console : Option Layout
  file : Option Layout
  deriving DecidableEq, Repr

namespace LogReceiver

/-- The receiver that a section asks for. A filter given from outside goes before the level, unless
it cannot be understood. -/
def ofConfig (override : Option String) (config : LoggingConfig) : LogReceiver where
  filter := (override.bind Filter.ofText?).getD (.upTo config.logLevel)
  console :=
    if config.logToConsole then some (if config.jsonFormat then .json else .compact) else none
  file := if config.logToFile then some (if config.jsonFormat then .json else .full) else none

/-- The event as it passes the filter, if it does. -/
def pass? (receiver : LogReceiver) (event : LogEvent) : Option LogEvent :=
  if receiver.filter.admits event.level event.target then
    some { event with
      span := event.span.filter fun span => receiver.filter.admits span.level span.target }
  else none

end LogReceiver

/-- A log: its receiver, once it has started, and the lines that were written. -/
structure Log where
  receiver : Option LogReceiver
  console : List ByteArray
  file : List ByteArray

namespace Log

def silent : Log := ⟨none, [], []⟩

/-- Writes an event, if the log has started and the event passes. -/
def record (log : Log) (event : LogEvent) : Log :=
  match log.receiver with
  | none => log
  | some receiver =>
    match receiver.pass? event with
    | none => log
    | some event =>
      let lines (layout : Option Layout) : List ByteArray :=
        layout.toList.map fun layout => layout.line event
      { log with
        console := log.console ++ lines receiver.console
        file := log.file ++ lines receiver.file }

/-- Writes what there is to log of notices. -/
def recordAll (log : Log) (notices : List Notice) : Log :=
  (notices.filterMap LogEvent.ofNotice?).foldl record log

/-- Starts a log, unless it has started or the section does not allow it. What stands in the way of
opening the log file is given by its path. -/
def start (directoryExists : String → Bool) (obstacle : String → Option FileFault)
    (override : Option String) (config : LoggingConfig) (log : Log) : Except ConfigFault Log :=
  match config.findings directoryExists with
  | [] =>
    match if config.logToFile then config.logFilePath.bind obstacle else none with
    | some fault => .error (.logFileUnopened fault)
    | none =>
      if log.receiver.isSome then .error .alreadyLogging
      else
        let started := { log with receiver := some (.ofConfig override config) }
        .ok (started.record (.started config.appName))
  | findings => .error (.invalidLogging findings)

end Log

end TypedPacket
