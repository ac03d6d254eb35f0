import TypedPacket.Config.Basic
import TypedPacket.Text.Path

/-!
# Validation of configurations

The findings of each section and, last, that of the sections together. Nothing is found exactly when
every setting is within its bounds (`FactoryConfig.findings_eq_nil_iff`,
`WireConfig.findings_eq_nil_iff`, `Config.findings_eq_nil_iff`). Which directories exist is given as
a predicate on their paths.
-/

set_option autoImplicit false
set_option relaxedAutoImplicit false

namespace TypedPacket

/-- The finding, if the condition holds. -/
def Finding.onlyIf (finding : Finding) (condition : Bool) : List Finding :=
  if condition then [finding] else []

@[simp] theorem Finding.onlyIf_eq_nil_iff (finding : Finding) (condition : Bool) :
    finding.onlyIf condition = [] ↔ condition = false := by
  cases condition <;> simp [onlyIf]

namespace FactoryConfig

def sizeFindings (config : FactoryConfig) : List Finding :=
  if config.maxPayloadSize = 0 then [.noPayload]
  else
    let size := config.maxPayloadSize.toNat
    (Finding.payloadTooLarge size TypedPacket.maxPayloadSize).onlyIf
      (TypedPacket.maxPayloadSize < size)

def seriesFindings (config : FactoryConfig) : List Finding :=
  match config.defaultSeries with
  | none => []
  | some series =>
    let size := series.utf8ByteSize
    if size = 0 then [.emptySeries]
    else (Finding.seriesTooLong size maxSeriesSize).onlyIf (maxSeriesSize < size)

def findings (config : FactoryConfig) : List Finding :=
  config.sizeFindings ++
    (Finding.unreadableFormat config.structFormat.name).onlyIf
      (!config.structFormat.isSelfDescribing) ++
    config.seriesFindings

/-- Nothing is found exactly when the size is in its range, the format of structured payloads can be
read back, and a factory accepts the series. -/
theorem findings_eq_nil_iff (config : FactoryConfig) :
    config.findings = [] ↔
      (config.maxPayloadSize ≠ 0 ∧ config.maxPayloadSize.toNat ≤ TypedPacket.maxPayloadSize) ∧
      config.structFormat.isSelfDescribing ∧ checkSeries config.defaultSeries = .ok () := by
  have size : config.sizeFindings = [] ↔ config.maxPayloadSize ≠ 0 ∧
      config.maxPayloadSize.toNat ≤ TypedPacket.maxPayloadSize := by
    unfold sizeFindings
    split <;> simp_all
  have series : config.seriesFindings = [] ↔ checkSeries config.defaultSeries = .ok () := by
    cases h : config.defaultSeries with
    | none => simp [seriesFindings, checkSeries, h]
    | some name =>
      by_cases empty : name = ""
      · simp [seriesFindings, checkSeries, h, empty]
      · simp [seriesFindings, checkSeries, h, empty]
  simp [findings, size, series, and_assoc]

end FactoryConfig

namespace WireConfig

def sizeFindings (config : WireConfig) : List Finding :=
  let size := config.maxFramePayload.toNat
  if size = 0 then [.noFramePayload]
  else (Finding.framePayloadTooLarge size maxPayloadSize).onlyIf (maxPayloadSize < size)

def findings (config : WireConfig) : List Finding :=
  config.sizeFindings ++
    Finding.thresholdTooLarge.onlyIf (config.compressionEnabled &&
      config.maxFramePayload.toNat < config.compressionThreshold.toNat)

/-- Nothing is found exactly when the frame limit is in its range and, with compression, the threshold
is no larger. -/
theorem findings_eq_nil_iff (config : WireConfig) :
    config.findings = [] ↔
      (0 < config.maxFramePayload.toNat ∧ config.maxFramePayload.toNat ≤ maxPayloadSize) ∧
      (config.compressionEnabled →
        config.compressionThreshold.toNat ≤ config.maxFramePayload.toNat) := by
  have size : config.sizeFindings = [] ↔
      0 < config.maxFramePayload.toNat ∧ config.maxFramePayload.toNat ≤ maxPayloadSize := by
    by_cases none : config.maxFramePayload.toNat = 0
    · simp [sizeFindings, none]
    · simp [sizeFindings, none, Nat.pos_of_ne_zero none]
  simp [findings, size]

end WireConfig

namespace LoggingConfig

/-- The findings on the place of the log file. -/
def placeFindings (directoryExists : String → Bool) (config : LoggingConfig) : List Finding :=
  match config.logFilePath with
  | none => [.noLogFile]
  | some path =>
    match Path.parent? path with
    | none => []
    | some parent =>
      (Finding.noLogDirectory parent).onlyIf (parent ≠ "" && !directoryExists parent)

def nameFindings (config : LoggingConfig) : List Finding :=
  let size := config.appName.utf8ByteSize
  if size = 0 then [.emptyName]
  else (Finding.nameTooLong size Finding.maxNameSize).onlyIf (Finding.maxNameSize < size)

def findings (directoryExists : String → Bool) (config : LoggingConfig) : List Finding :=
  config.nameFindings ++
    (if config.logToFile then config.placeFindings directoryExists else []) ++
    Finding.noLogOutput.onlyIf (!config.logToConsole && !config.logToFile)

end LoggingConfig

namespace Config

/-- What is found in the configuration, in order. -/
def findings (directoryExists : String → Bool) (config : Config) : List Finding :=
  let payload := config.factory.maxPayloadSize.toNat
  let frame := config.wire.maxFramePayload.toNat
  config.factory.findings ++ config.wire.findings ++ config.logging.findings directoryExists ++
    (Finding.payloadBeyondFrame payload frame).onlyIf (frame < payload)

/-- Nothing is found exactly when nothing is found in any section and what the factory may build is
within the limit of the frames. -/
theorem findings_eq_nil_iff (directoryExists : String → Bool) (config : Config) :
    config.findings directoryExists = [] ↔
      config.factory.findings = [] ∧ config.wire.findings = [] ∧
      config.logging.findings directoryExists = [] ∧
      config.factory.maxPayloadSize.toNat ≤ config.wire.maxFramePayload.toNat := by
  simp [findings]

/-- Refuses a configuration in which something is found. -/
def check (directoryExists : String → Bool) (config : Config) : Except ConfigFault Unit :=
  match config.findings directoryExists with
  | [] => .ok ()
  | findings => .error (.invalid findings)

end Config

end TypedPacket
