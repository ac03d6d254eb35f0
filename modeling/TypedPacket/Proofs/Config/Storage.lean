import TypedPacket.Config.Storage
import TypedPacket.Proofs.Config.Delivery
import TypedPacket.Proofs.Toml.Document

/-!
# Saved configurations

What is written for a configuration reads back (`Config.ofText_toText`): each section as the table
of its settings, and a setting that is absent is absent from the blank record too. Everything can be
written but a size beyond the integers of a document. A configuration in which nothing is found has
its sizes far below that, except that a threshold counts for nothing while there is no compression
(`Config.saves`).
-/

set_option autoImplicit false
set_option relaxedAutoImplicit false

namespace TypedPacket

open Toml (RecordType Section Setting)

/-! ### Settings read back -/

namespace Toml.Setting

@[simp] theorem asSize_value (n : UInt64) : (size n).value.asSize = .ok n := by
  have hsign : (0 : Int) ≤ n.toNat := Int.natCast_nonneg _
  simp only [value, Value.asSize, hsign, if_true, Int.toNat_natCast, UInt64.ofNat_toNat]

@[simp] theorem asFlag_value (b : Bool) : (flag b).value.asFlag = .ok b := rfl

@[simp] theorem asText_value (words : String) : (text words).value.asText = .ok words := rfl

end Toml.Setting

@[simp] theorem FactoryConfig.formatOf_value (format : Encoding) :
    formatOf (Setting.text format.name).value = .ok format := by
  cases format <;> rfl

@[simp] theorem WireConfig.kindOf_value (kind : CompressionKind) :
    kindOf (Setting.text kind.name).value = .ok kind := by
  cases kind <;> rfl

@[simp] theorem LoggingConfig.levelOf_value (level : LogLevel) :
    levelOf (Setting.text level.name).value = .ok level := by
  simp only [levelOf, Setting.asText_value, LogLevel.ofText?_name, bind, Except.bind]

/-! ### Sections read back -/

/-- A record is read from entries that are put one after another and leave no field missing. -/
theorem Toml.RecordType.ofEntries_of_putEntries {ρ : Type} {type : RecordType ρ} {entries : Entries}
    {record : ρ} (hput : entries.foldlM type.putEntry type.blank = .ok record)
    (hmissing : type.missing? entries = none) : type.ofEntries entries = .ok record := by
  simp only [ofEntries, hput, hmissing, bind, Except.bind]

theorem FactoryConfig.ofEntries_entries (config : FactoryConfig) (name : String) :
    recordType.ofEntries (Section.entries ⟨name, config.settings⟩) = .ok config := by
  obtain ⟨size, format, stamp, _ | series⟩ := config <;>
    refine RecordType.ofEntries_of_putEntries ?_ rfl <;>
    simp [Section.entries, settings, optionalSetting, recordType, RecordType.putEntry, bind,
      Except.bind, pure, Except.pure, default]

theorem WireConfig.ofEntries_entries (config : WireConfig) (name : String) :
    recordType.ofEntries (Section.entries ⟨name, config.settings⟩) = .ok config := by
  refine RecordType.ofEntries_of_putEntries ?_ rfl
  simp [Section.entries, settings, recordType, RecordType.putEntry, bind, Except.bind, pure,
    Except.pure]

theorem LoggingConfig.ofEntries_entries (config : LoggingConfig) (name : String) :
    recordType.ofEntries (Section.entries ⟨name, config.settings⟩) = .ok config := by
  obtain ⟨app, level, console, file, _ | path, json⟩ := config <;>
    refine RecordType.ofEntries_of_putEntries ?_ rfl <;>
    simp [Section.entries, settings, optionalSetting, recordType, RecordType.putEntry, bind,
      Except.bind, pure, Except.pure, default]

namespace Config

/-- Sections under their names make up the configuration. -/
theorem ofEntries_sections (config : Config) :
    recordType.ofEntries (config.sections.map Section.entry) = .ok config := by
  refine RecordType.ofEntries_of_putEntries ?_ rfl
  simp [sections, Section.entry, recordType, RecordType.putEntry, RecordType.read,
    FactoryConfig.ofEntries_entries, WireConfig.ofEntries_entries,
    LoggingConfig.ofEntries_entries, bind, Except.bind, pure, Except.pure]

end Config

/-! ### Names -/

/-- The names of the settings that are written, in the order of the fields that they are read as. -/
theorem FactoryConfig.names_sublist (config : FactoryConfig) :
    (config.settings.map Prod.fst).Sublist (recordType.fields.map Toml.RecordField.name) := by
  obtain ⟨size, format, stamp, _ | series⟩ := config <;>
    simp [settings, optionalSetting, recordType]

theorem WireConfig.names_sublist (config : WireConfig) :
    (config.settings.map Prod.fst).Sublist (recordType.fields.map Toml.RecordField.name) := by
  simp [settings, recordType]

theorem LoggingConfig.names_sublist (config : LoggingConfig) :
    (config.settings.map Prod.fst).Sublist (recordType.fields.map Toml.RecordField.name) := by
  obtain ⟨app, level, console, file, _ | path, json⟩ := config <;>
    simp [settings, optionalSetting, recordType]

/-- A section is well named if its settings are among the fields of a record, in their order. -/
theorem Toml.Section.WellNamed.of_sublist {ρ : Type} {type : RecordType ρ} {content : Section}
    (h : (content.settings.map Prod.fst).Sublist (type.fields.map RecordField.name))
    (hname : isBareName content.name = true)
    (hfields : ∀ name ∈ type.fields.map RecordField.name, isBareName name = true)
    (hnodup : (type.fields.map RecordField.name).Nodup) : content.WellNamed :=
  ⟨hname, fun _ hsetting ↦ hfields _ (h.subset (List.mem_map_of_mem hsetting)), hnodup.sublist h⟩

namespace Config

theorem wellNamed_sections (config : Config) :
    ∀ content ∈ config.sections, content.WellNamed := by
  have hnames : ∀ name ∈ ["factory", "wire", "logging"], Toml.isBareName name = true := by decide
  simp only [sections, List.forall_mem_cons, List.not_mem_nil, false_implies, implies_true,
    and_true] at hnames ⊢
  exact ⟨.of_sublist config.factory.names_sublist hnames.1 (by decide) (by decide),
    .of_sublist config.wire.names_sublist hnames.2.1 (by decide) (by decide),
    .of_sublist config.logging.names_sublist hnames.2.2 (by decide) (by decide)⟩

theorem nodup_sections (config : Config) : (config.sections.map Section.name).Nodup := by
  simp [sections]

theorem toText_eq_ok_iff {config : Config} {text : String} :
    config.toText = .ok text ↔
      ∃ words, Section.writeAll config.sections = some words ∧ String.ofList words = text := by
  unfold toText
  cases Section.writeAll config.sections with
  | none => simp
  | some words => simp

/-! ### What can be saved -/

/-- Everything can be written but a size that is beyond the integers of a document. -/
theorem exists_toText_iff {config : Config} :
    (∃ text, config.toText = .ok text) ↔
      config.factory.maxPayloadSize.toNat ≤ Toml.maxInteger ∧
      config.wire.compressionThreshold.toNat ≤ Toml.maxInteger ∧
      config.wire.maxFramePayload.toNat ≤ Toml.maxInteger := by
  have hwritten : (∃ text, config.toText = .ok text) ↔
      ∃ words, Section.writeAll config.sections = some words := by
    simp only [toText_eq_ok_iff]
    exact ⟨fun ⟨_, words, hwords, _⟩ ↦ ⟨words, hwords⟩,
      fun ⟨words, hwords⟩ ↦ ⟨_, words, hwords, rfl⟩⟩
  rw [hwritten, Section.exists_writeAll_iff]
  obtain ⟨⟨_, _, _, _ | _⟩, wire, ⟨_, _, _, _, _ | _, _⟩⟩ := config <;>
    simp only [sections, FactoryConfig.settings, WireConfig.settings, LoggingConfig.settings,
      optionalSetting, List.forall_mem_append, List.forall_mem_cons, List.not_mem_nil,
      false_implies, implies_true, Setting.InRange, and_true, true_and]

/-- Saving fails for the text, or for what stands in the way of the file. -/
theorem save_eq {config : Config} {text : String} (h : config.toText = .ok text)
    (obstacle : Option FileFault) :
    config.save obstacle = match obstacle with
      | some fault => .error (.unsaved fault)
      | none => .ok text := by
  cases obstacle <;> simp only [save, h, bind, Except.bind]

/-- There is only one cause for which a configuration has no text. -/
theorem toText_eq_error {config : Config}
    (h : ¬ ∃ text, config.toText = .ok text) : config.toText = .error .sizeOutOfRange := by
  unfold toText at h ⊢
  cases hwords : Section.writeAll config.sections with
  | none => rfl
  | some words =>
    rw [hwords] at h
    exact absurd ⟨_, rfl⟩ h

/-- With compression, the threshold is within the limit of the frames. -/
theorem threshold_le {directoryExists : String → Bool} {config : Config}
    (hvalid : config.findings directoryExists = [])
    (henabled : config.wire.compressionEnabled = true) :
    config.wire.compressionThreshold.toNat ≤ config.wire.maxFramePayload.toNat := by
  obtain ⟨-, hwire, -, -⟩ := (findings_eq_nil_iff _ _).mp hvalid
  exact ((WireConfig.findings_eq_nil_iff _).mp hwire).2 henabled

/-- Assumes: a configuration in which nothing is found. It has a text exactly if its threshold is
within the integers of a document, which it always is where compression is enabled; then saving
fails only for what stands in the way of the file. Beyond them saving fails whatever the file. -/
theorem saves {directoryExists : String → Bool} {config : Config}
    (hvalid : config.findings directoryExists = []) :
    ((∃ text, config.toText = .ok text) ↔
      config.wire.compressionThreshold.toNat ≤ Toml.maxInteger) ∧
    (config.wire.compressionEnabled = true →
      config.wire.compressionThreshold.toNat ≤ Toml.maxInteger) ∧
    (config.wire.compressionThreshold.toNat ≤ Toml.maxInteger → ∀ obstacle fault,
      config.save obstacle = .error fault → ∃ cause ∈ obstacle, fault = .unsaved cause) ∧
    (Toml.maxInteger < config.wire.compressionThreshold.toNat → ∀ obstacle,
      config.save obstacle = .error .sizeOutOfRange) := by
  have hcoherent := coherent hvalid
  have hlimit : maxPayloadSize ≤ Toml.maxInteger := by decide
  have hframe : config.wire.maxFramePayload.toNat ≤ Toml.maxInteger :=
    Nat.le_trans hcoherent.frame_le hlimit
  have hpayload : config.factory.maxPayloadSize.toNat ≤ Toml.maxInteger :=
    Nat.le_trans hcoherent.payload_le_frame hframe
  have htext : (∃ text, config.toText = .ok text) ↔
      config.wire.compressionThreshold.toNat ≤ Toml.maxInteger := by
    simp only [exists_toText_iff, hpayload, hframe, true_and, and_true]
  refine ⟨htext, fun henabled ↦ ?_, fun hthreshold obstacle fault hfault ↦ ?_,
    fun hthreshold obstacle ↦ ?_⟩
  · exact Nat.le_trans (threshold_le hvalid henabled) hframe
  · obtain ⟨text, hsaved⟩ := htext.mpr hthreshold
    rw [save_eq hsaved] at hfault
    cases obstacle with
    | none => cases hfault
    | some cause => exact ⟨cause, rfl, (Except.error.inj hfault).symm⟩
  · have hnone := toText_eq_error fun h ↦ Nat.not_le.mpr hthreshold (htext.mp h)
    simp only [save, hnone, bind, Except.bind]

/-- A configuration that compresses is saved unless the file stands in the way. -/
theorem saves_tight :
    tight.findings (fun _ ↦ true) = [] ∧ (∃ text, tight.toText = .ok text) ∧
      ∀ obstacle fault, tight.save obstacle = .error fault →
        ∃ cause ∈ obstacle, fault = .unsaved cause := by
  have hvalid : tight.findings (fun _ ↦ true) = [] := by decide
  obtain ⟨htext, henabled, hfault, -⟩ := saves hvalid
  exact ⟨hvalid, htext.mpr (henabled rfl), hfault (henabled rfl)⟩

/-- The default configuration with the greatest threshold, which counts for nothing. -/
def idle : Config :=
  ⟨.default, { WireConfig.default with compressionThreshold := 0xFFFFFFFFFFFFFFFF }, .default⟩

/-- Not every configuration in which nothing is found can be saved. -/
theorem exists_valid_unsaved :
    ∃ config : Config, config.findings (fun _ ↦ true) = [] ∧
      config.wire.compressionEnabled = false ∧
      ∀ obstacle, config.save obstacle = .error .sizeOutOfRange := by
  have hnone : idle.toText = .error .sizeOutOfRange := by
    refine toText_eq_error ?_
    rw [exists_toText_iff]
    decide
  refine ⟨idle, by decide, rfl, fun obstacle ↦ ?_⟩
  simp only [save, hnone, bind, Except.bind]

/-! ### Loading what was saved -/

/-- A saved configuration loads back unchanged. Whatever its settings are, a text of it is read as
the configuration that it was written for, and so is a file that holds the text. -/
theorem ofText_toText {config : Config} {text : String} (h : config.toText = .ok text) :
    ofText text = .ok config ∧ load (.octets text.toUTF8) = .ok config := by
  obtain ⟨words, hwords, rfl⟩ := toText_eq_ok_iff.mp h
  have hdocument := Toml.document?_writeAll config.wellNamed_sections config.nodup_sections
    hwords
  have hread : ofText (String.ofList words) = .ok config := by
    rw [ofText, hdocument]
    simp only [config.ofEntries_sections]
    rfl
  refine ⟨hread, ?_⟩
  rw [load, Utf8.decode_toUTF8]
  exact hread

/-- A configuration with quotes, backslashes, line ends and controls in its texts, each of which is
written in a form of its own. -/
def awkward : Config :=
  ⟨⟨1, .messagePack, true, some "a \\ and three \x27\x27\x27 and \x22\x22\x22\x22 on\n two lines"⟩,
    ⟨true, .zstd, 0, 1⟩,
    ⟨"say \x22hi\x22", .trace, false, true, some "C:\\logs\x01\x7F\t", true⟩⟩

/-- It is written, and loads back. -/
theorem ofText_toText_awkward :
    ∃ text, awkward.toText = .ok text ∧ ofText text = .ok awkward := by
  obtain ⟨text, htext⟩ : ∃ text, awkward.toText = .ok text :=
    exists_toText_iff.mpr ⟨by decide, by decide, by decide⟩
  exact ⟨text, htext, (ofText_toText htext).1⟩

end Config

end TypedPacket
