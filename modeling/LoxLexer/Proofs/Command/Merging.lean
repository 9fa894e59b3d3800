import LoxLexer.Proofs.Command.Breakdown

/-!
# Merging arguments and a configuration

Three layers make the settings: what the arguments say, what the configuration says, and what holds
if neither says anything.  Each setting has its own rule for which layer decides, and what one of
the layers is asked for never depends on another.  An argument that is given without text counts as
absent where it names a file.

* `Selects` — the configuration file that arguments select.
* `Merges` — the settings, each by its own rule.
* `Agree`, `resolve_eq_of_agree` — the two entries of a configuration that matter.
* `resolve_merges` — a format that is none is refused, whatever the arguments; all else is merged.
-/

namespace LoxLexer
namespace Command

variable {tree : FileTree} {arguments : Arguments} {config : Toml.Table}

/-! ### The layers -/

/-- An option is given, with a text that is not empty. -/
def Setting.Fills (setting : Setting) (value : Text) : Prop := setting = .given value ∧ value ≠ []

theorem nonempty?_eq_some_iff {setting : Setting} {value : Text} :
    nonempty? setting = some value ↔ setting.Fills value := by
  rcases setting with - | - | (- | ⟨c, rest⟩)
  · simp [nonempty?, Setting.Fills]
  · simp [nonempty?, Setting.Fills]
  · simp +contextual [nonempty?, Setting.Fills, eq_comm]
  · simp +contextual [nonempty?, Setting.Fills, eq_comm]

theorem nonempty?_eq_none_iff {setting : Setting} :
    nonempty? setting = none ↔ ∀ value, ¬setting.Fills value := by
  rw [Option.eq_none_iff_forall_ne_some]
  exact forall_congr' fun value => not_congr nonempty?_eq_some_iff

/-- The configuration file that arguments select: the one that they name, or else the one of the
usual name beside the input. -/
inductive Selects (arguments : Arguments) : Path → Prop
  | named {value} (h : arguments.config.Fills value) : Selects arguments (Path.ofText value)
  | beside (h : ∀ value, ¬arguments.config.Fills value) :
      Selects arguments ((Path.ofText arguments.input).parent.child configName)

theorem Selects.eq_configFile {path : Path} (h : Selects arguments path) :
    path = arguments.configFile := by
  cases h with
  | named h =>
      rw [Arguments.configFile, Arguments.configPath?, nonempty?_eq_some_iff.mpr h]
      rfl
  | beside h =>
      rw [Arguments.configFile, Arguments.configPath?, nonempty?_eq_none_iff.mpr h]
      rfl

/-- The settings, each by its own rule.  The arguments alone decide on the input, the output and
debugging; on the format and the end of file they go before the configuration. -/
structure Merges (arguments : Arguments) (config : Toml.Table) (settings : Settings) : Prop where
  input : settings.input = Path.ofText arguments.input
  debug : settings.debug = arguments.debug
  output_filled {value} : arguments.output.Fills value → settings.output = some (Path.ofText value)
  output_none_iff : settings.output = none ↔ ∀ value, ¬arguments.output.Fills value
  format_given {name} : arguments.format = .given name → settings.format = name
  format_void : arguments.format = .void → settings.format = []
  format_config {name} : arguments.format = .absent →
    config.setting? "output".toList "format".toList = some (.string name) →
      settings.format = name
  format_default : arguments.format = .absent →
    config.setting? "output".toList "format".toList = none → settings.format = "text".toList
  eof_given {eof} : arguments.eof = some eof → settings.eof = eof
  eof_config {eof} : arguments.eof = none →
    config.setting? "output".toList "eof".toList = some (.boolean eof) → settings.eof = eof
  eof_default : arguments.eof = none →
    (∀ eof, config.setting? "output".toList "eof".toList ≠ some (.boolean eof)) →
      settings.eof = true

theorem merges_settings (arguments : Arguments) (config : Toml.Table) :
    Merges arguments config (arguments.settings config) where
  input := rfl
  debug := rfl
  output_filled h := congrArg (Option.map Path.ofText) (nonempty?_eq_some_iff.mpr h)
  output_none_iff := Option.map_eq_none_iff.trans nonempty?_eq_none_iff
  format_given h := by
    show arguments.formatName config = _
    rw [Arguments.formatName, h]
  format_void h := by
    show arguments.formatName config = _
    rw [Arguments.formatName, h]
  format_config h hentry := by
    show arguments.formatName config = _
    rw [Arguments.formatName, h, hentry]
  format_default h hentry := by
    show arguments.formatName config = _
    rw [Arguments.formatName, h, hentry]
    rfl
  eof_given h := by
    show arguments.listsEof config = _
    rw [Arguments.listsEof, h]
  eof_config h hentry := by
    show arguments.listsEof config = _
    rw [Arguments.listsEof, h, hentry]
  eof_default h hentry := by
    show arguments.listsEof config = true
    rw [Arguments.listsEof, h]
    split
    · contradiction
    · next hboolean => exact absurd hboolean (hentry _)
    · rfl

/-! ### The entries that matter -/

/-- Two configurations have the same format, if any, and say the same about the end of file, if
they say anything.  A value of another type than a truth value says nothing about it. -/
structure Agree (config config' : Toml.Table) : Prop where
  format : config.setting? "output".toList "format".toList =
    config'.setting? "output".toList "format".toList
  eof (eof : Bool) : config.setting? "output".toList "eof".toList = some (.boolean eof) ↔
    config'.setting? "output".toList "eof".toList = some (.boolean eof)

theorem configEof_eq_some_iff {eof : Bool} :
    configEof (outputTable config) = some eof ↔
      config.setting? "output".toList "eof".toList = some (.boolean eof) := by
  rw [configEof, get?_outputTable]
  rcases config.setting? "output".toList "eof".toList with - | value
  · simp
  · cases value <;> simp

/-- A configuration of which the format is taken has its name. -/
theorem setting?_of_configFormat {format : Format}
    (h : (configFormat (outputTable config)).toOption = some (some format)) :
    config.setting? "output".toList "format".toList = some (.string format.name) := by
  by_cases hsome : ∃ value, Refused config value
  · obtain ⟨value, hrefused⟩ := hsome
    rw [configFormat_of_refused hrefused rfl] at h
    contradiction
  · obtain ⟨-, hformat⟩ | ⟨format', hentry, hformat⟩ :=
      configFormat_of_accepted (not_exists.mp hsome)
    · rw [hformat] at h
      exact nomatch Option.some.inj h
    · rw [hformat] at h
      rw [hentry, Option.some.inj (Option.some.inj h)]

variable {config' : Toml.Table}

theorem Agree.configFormat_eq (h : Agree config config') :
    configFormat (outputTable config) = configFormat (outputTable config') := by
  rw [configFormat, configFormat, get?_outputTable, get?_outputTable, h.format]

theorem Agree.listsEof_eq (h : Agree config config') (arguments : Arguments) :
    arguments.listsEof config = arguments.listsEof config' := by
  have heof : configEof (outputTable config) = configEof (outputTable config') :=
    Option.ext fun eof =>
      configEof_eq_some_iff.trans ((h.eof eof).trans configEof_eq_some_iff.symm)
  rw [← Command.listsEof_eq, ← Command.listsEof_eq, heof]

theorem Agree.settings_eq (h : Agree config config') (arguments : Arguments) :
    arguments.settings config = arguments.settings config' := by
  have hname : arguments.formatName config = arguments.formatName config' := by
    rw [Arguments.formatName, Arguments.formatName, h.format]
  rw [Arguments.settings, Arguments.settings, hname, h.listsEof_eq]

/-- Nothing but two entries of the configuration matters, whatever tree it comes from. -/
theorem resolve_eq_of_agree {tree' : FileTree}
    (h : Configuration tree arguments.configFile (.ok config))
    (h' : Configuration tree' arguments.configFile (.ok config')) (hagree : Agree config config') :
    Settings.resolve tree arguments = Settings.resolve tree' arguments := by
  rw [resolve_of_configuration h, resolve_of_configuration h', hagree.configFormat_eq,
    hagree.settings_eq]

/-! ### The merge -/

/-- What a format is refused with: it is named in the message, unless it cannot be shown. -/
def refusal (value : Toml.Value) : SettingsError :=
  match value.obstacle? Toml.mostLevels with
  | none => .badFormat value
  | some cause => .unshowable cause

theorem refusal_eq_badFormat_iff {value value' : Toml.Value} :
    refusal value = .badFormat value' ↔
      value = value' ∧ value.obstacle? Toml.mostLevels = none := by
  unfold refusal
  split <;> simp_all

theorem resolve_of_refused {value : Toml.Value}
    (h : Configuration tree arguments.configFile (.ok config)) (hrefused : Refused config value) :
    Settings.resolve tree arguments = .error (refusal value) := by
  unfold refusal
  split
  · next hshown => exact (Resolution.badFormat h hrefused hshown).resolve_eq
  · next hshown => exact (Resolution.unshowable h hrefused hshown).resolve_eq

theorem resolve_of_not_refused (h : Configuration tree arguments.configFile (.ok config))
    (hnone : ∀ value, ¬Refused config value) :
    Settings.resolve tree arguments = .ok (arguments.settings config) :=
  (Resolution.settings ⟨h, hnone⟩).resolve_eq

/-- Only a refused format keeps a configuration that has been loaded from making settings. -/
theorem resolve_eq_error_iff (h : Configuration tree arguments.configFile (.ok config))
    {error : SettingsError} :
    Settings.resolve tree arguments = .error error ↔
      ∃ value, Refused config value ∧ refusal value = error := by
  constructor
  · intro herror
    by_cases hsome : ∃ value, Refused config value
    · obtain ⟨value, hrefused⟩ := hsome
      exact ⟨value, hrefused,
        Except.error.inj ((resolve_of_refused h hrefused).symm.trans herror)⟩
    · have hok := resolve_of_not_refused h (not_exists.mp hsome)
      exact nomatch hok.symm.trans herror
  · rintro ⟨value, hrefused, rfl⟩
    exact resolve_of_refused h hrefused

/-- With a configuration file that has been loaded, resolving the settings fails exactly if its
format is none, whatever the arguments; the failure is about the format unless that cannot be shown.
Otherwise the settings are those of the three layers. -/
theorem resolve_merges {path : Path} (hpath : Selects arguments path)
    (h : Configuration tree path (.ok config)) :
    ((∃ error, Settings.resolve tree arguments = .error error) ↔
        ∃ value, Refused config value) ∧
      (∀ value, Settings.resolve tree arguments = .error (.badFormat value) ↔
        Refused config value ∧ value.obstacle? Toml.mostLevels = none) ∧
      (∀ value cause, Refused config value → value.obstacle? Toml.mostLevels = some cause →
        Settings.resolve tree arguments = .error (.unshowable cause)) ∧
      ((∀ value, ¬Refused config value) → ∃ settings,
        Settings.resolve tree arguments = .ok settings ∧ Merges arguments config settings) ∧
      ∀ tree' config', Configuration tree' path (.ok config') → Agree config config' →
        Settings.resolve tree arguments = Settings.resolve tree' arguments := by
  obtain rfl := hpath.eq_configFile
  refine ⟨?_, ?_, ?_, ?_, fun tree' config' => resolve_eq_of_agree h⟩
  · simp only [resolve_eq_error_iff h]
    exact ⟨fun ⟨_, value, hrefused, _⟩ => ⟨value, hrefused⟩,
      fun ⟨value, hrefused⟩ => ⟨_, value, hrefused, rfl⟩⟩
  · intro value
    rw [resolve_eq_error_iff h]
    constructor
    · rintro ⟨value', hrefused, hvalue⟩
      obtain ⟨rfl, hshown⟩ := refusal_eq_badFormat_iff.mp hvalue
      exact ⟨hrefused, hshown⟩
    · rintro ⟨hrefused, hshown⟩
      exact ⟨value, hrefused, refusal_eq_badFormat_iff.mpr ⟨rfl, hshown⟩⟩
  · intro value cause hrefused hshown
    exact (Resolution.unshowable h hrefused hshown).resolve_eq
  · intro hnone
    exact ⟨_, resolve_of_not_refused h hnone, merges_settings arguments config⟩

/-- What can be decided of the table of a document holds of some table that the document has. -/
theorem exists_of_any {result : Except Toml.ReadError Toml.Table} {p : Toml.Table → Bool}
    (h : result.toOption.any p = true) : ∃ config, result = .ok config ∧ p config = true := by
  cases result with
  | error => contradiction
  | ok config => exact ⟨config, rfl, h⟩

theorem holds_treeWithConfig (content : Bytes) : (treeWithConfig content).Holds
    ((Path.ofText "a.lox".toList).parent.child configName) content :=
  ⟨_, rfl, rfl⟩

/-- A configuration that asks for JSON and for leaving the end of file out. -/
def sampleDocument : Text := "[output]\nformat = \"json\"\neof = false".toList

/-- Arguments for plain text that leave the end of file to the configuration. -/
def plainArguments : Arguments where
  input := "a.lox".toList
  format := .given "text".toList

/-- The format comes from the arguments and the end of file from the configuration. -/
theorem resolve_merges_layers :
    Selects plainArguments ((Path.ofText "a.lox".toList).parent.child configName) ∧
      ∃ config, Configuration (treeWithConfig (Utf8.encode sampleDocument))
          ((Path.ofText "a.lox".toList).parent.child configName) (.ok config) ∧
        config.setting? "output".toList "format".toList = some (.string "json".toList) ∧
        ∃ settings, Settings.resolve (treeWithConfig (Utf8.encode sampleDocument)) plainArguments =
          .ok settings ∧ settings.format = "text".toList ∧ settings.eof = false := by
  have hsample : (Toml.read sampleDocument).toOption.any (fun config =>
      (configFormat (outputTable config)).toOption = some (some .json) ∧
        configEof (outputTable config) = some false) := by
    decide +kernel
  obtain ⟨config, hread, hconfig⟩ := exists_of_any hsample
  obtain ⟨hformat, heof⟩ := of_decide_eq_true hconfig
  have hentry := setting?_of_configFormat hformat
  have hselects : Selects plainArguments ((Path.ofText "a.lox".toList).parent.child configName) :=
    .beside fun value hfills => nomatch hfills.1
  have hconfiguration := Configuration.table (holds_treeWithConfig _) hread
  have hnone (value : Toml.Value) (hrefused : Refused config value) : False :=
    hrefused.2 .json (Option.some.inj (hrefused.1.symm.trans hentry))
  obtain ⟨-, -, -, hmerges, -⟩ := resolve_merges hselects hconfiguration
  obtain ⟨settings, hsettings, hmerges⟩ := hmerges hnone
  exact ⟨hselects, config, hconfiguration, hentry, settings, hsettings, hmerges.format_given rfl,
    hmerges.eof_config rfl (configEof_eq_some_iff.mp heof)⟩

/-! ### A format that cannot be shown -/

/-- A format that cannot be shown is the name of none. -/
theorem refused_of_obstacle {value : Toml.Value} {cause : Toml.Unshowable}
    (hentry : config.setting? "output".toList "format".toList = some value)
    (hshown : value.obstacle? Toml.mostLevels = some cause) : Refused config value := by
  refine ⟨hentry, fun format hformat => ?_⟩
  rw [hformat] at hshown
  contradiction

/-- A configuration that asks for a format by an integer.  In hexadecimal digits, as here, it may
have any length; in decimal ones it would be too long to be shown. -/
def endlessDocument : Text := "[output]\nformat = 0x".toList ++ List.replicate 3572 'f'

/-- A format that is none is refused, but the failure is not about the format. -/
theorem unshowable_format_not_badFormat :
    ∃ config value, Configuration (treeWithConfig (Utf8.encode endlessDocument))
        ((Path.ofText "a.lox".toList).parent.child configName) (.ok config) ∧
      Refused config value ∧
      Settings.resolve (treeWithConfig (Utf8.encode endlessDocument)) { input := "a.lox".toList } =
        .error (.unshowable .tooManyDigits) := by
  have hendless : (Toml.read endlessDocument).toOption.any (fun config =>
      (config.setting? "output".toList "format".toList).any (fun value =>
        value.obstacle? Toml.mostLevels = some .tooManyDigits)) := by
    decide +kernel
  obtain ⟨config, hread, hconfig⟩ := exists_of_any hendless
  obtain ⟨value, hentry, hshown⟩ := (Option.any_eq_true _ _).mp hconfig
  replace hshown := of_decide_eq_true hshown
  have hrefused := refused_of_obstacle hentry hshown
  have hconfiguration := Configuration.table (holds_treeWithConfig _) hread
  exact ⟨config, value, hconfiguration, hrefused,
    (Resolution.unshowable hconfiguration hrefused hshown).resolve_eq⟩

end Command
end LoxLexer
