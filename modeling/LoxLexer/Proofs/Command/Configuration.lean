import LoxLexer.Command.Settings
import LoxLexer.Proofs.Storage.Access
import LoxLexer.Proofs.Text.WellFormed

/-!
# Settings from arguments and a configuration file

What the settings are, told apart from how they are made: what the selected configuration file comes
to, which value of its format is refused, and what the arguments leave for it to decide.

* `Configuration`, `loadConfig_eq_iff` — what a configuration file comes to: a table, or why there
  is none.
* `Toml.Table.setting?`, `Refused` — the values of a configuration, and a format that is none.
* `Arguments.settings` — the settings that follow from arguments and a table.
* `Resolution`, `resolve_eq_iff` — all that resolving the settings can come to.
-/

namespace LoxLexer

/-- The value of a key in a section. -/
def Toml.Table.setting? (table : Toml.Table) (heading key : Text) : Option Toml.Value :=
  match table.get? heading with
  | some (.table entries) => Toml.Table.get? entries key
  | _ => none

namespace Command

/-- A relation that holds of something, and of nothing but `a`, is equality with `a`. -/
theorem eq_iff_of_exists {α : Type} {R : α → Prop} {a b : α} (hexists : ∃ x, R x)
    (heq : ∀ {x}, R x → a = x) : a = b ↔ R b := by
  obtain ⟨x, hx⟩ := hexists
  refine ⟨?_, heq⟩
  rintro rfl
  rwa [heq hx]

/-! ### The configuration file -/

/-- The configuration file that arguments select. -/
def Arguments.configFile (arguments : Arguments) : Path :=
  configPath arguments.configPath? (Path.ofText arguments.input).parent

/-- Why a document that is refused makes no settings. -/
def SettingsError.ofToml : Toml.ReadError → SettingsError
  | .malformed => .malformed
  | .tooManyDigits count => .tooManyDigits count
  | .tooDeep => .tooDeep

/-- What the configuration file at a path comes to.  Only a file whose bytes are those of a text is
read as a document. -/
inductive Configuration (tree : FileTree) (path : Path) : Except SettingsError Toml.Table → Prop
  | unreachable {error} (h : tree.isFile path = .error error) :
      Configuration tree path (.error (.file (.inaccessible error)))
  | absent (h : tree.isFile path = .ok false) : Configuration tree path (.ok [])
  | undecodable {content error} (hholds : tree.Holds path content)
      (h : Utf8.decode content = .error error) :
      Configuration tree path (.error (.file (.undecodable error)))
  | refused {text error} (hholds : tree.Holds path (Utf8.encode text))
      (h : Toml.read text = .error error) : Configuration tree path (.error (.ofToml error))
  | table {text table} (hholds : tree.Holds path (Utf8.encode text))
      (h : Toml.read text = .ok table) : Configuration tree path (.ok table)

variable {tree : FileTree} {named : Option Path} {directory : Path}

/-- Every configuration file comes to something. -/
theorem exists_configuration (tree : FileTree) (path : Path) :
    ∃ result, Configuration tree path result := by
  rcases hfile : tree.isFile path with error | (- | -)
  · exact ⟨_, .unreachable hfile⟩
  · exact ⟨_, .absent hfile⟩
  · obtain ⟨content, hholds⟩ := FileTree.isFile_eq_ok_true_iff.mp hfile
    rcases hdecode : Utf8.decode content with error | text
    · exact ⟨_, .undecodable hholds hdecode⟩
    · obtain rfl := Utf8.decode_eq_ok_iff.mp hdecode
      rcases hread : Toml.read text with error | table
      · exact ⟨_, .refused hholds hread⟩
      · exact ⟨_, .table hholds hread⟩

/-- A file is loaded by decoding it and reading the text. -/
theorem loadConfig_of_holds {content : Bytes}
    (hholds : tree.Holds (configPath named directory) content) :
    loadConfig tree named directory =
      (Utf8.decode content).mapError (.file ∘ .undecodable) >>= fun text =>
        (Toml.read text).mapError .ofToml := by
  have hfile : tree.isFile (configPath named directory) = .ok true :=
    FileTree.isFile_eq_ok_true_iff.mpr ⟨content, hholds⟩
  rw [loadConfig, hfile, hholds.read_eq]
  show (Utf8.decode content).mapError _ >>= _ = _
  refine bind_congr fun text => ?_
  rcases Toml.read text with (- | - | -) | table <;> rfl

theorem Configuration.loadConfig_eq {result : Except SettingsError Toml.Table}
    (h : Configuration tree (configPath named directory) result) :
    loadConfig tree named directory = result := by
  cases h with
  | unreachable h =>
      rw [loadConfig, h]
      rfl
  | absent h =>
      rw [loadConfig, h]
      rfl
  | undecodable hholds h =>
      rw [loadConfig_of_holds hholds, h]
      rfl
  | refused hholds h =>
      rw [loadConfig_of_holds hholds, Utf8.decode_encode]
      exact congrArg (Except.mapError SettingsError.ofToml) h
  | table hholds h =>
      rw [loadConfig_of_holds hholds, Utf8.decode_encode]
      exact congrArg (Except.mapError SettingsError.ofToml) h

/-- Why a configuration file has no table. -/
theorem Configuration.error_cases {path : Path} {error : SettingsError}
    (h : Configuration tree path (.error error)) :
    (∃ cause, error = .file (.inaccessible cause) ∧ tree.isFile path = .error cause) ∨
      (∃ content cause, error = .file (.undecodable cause) ∧ tree.Holds path content ∧
        Utf8.decode content = .error cause) ∨
      ∃ text cause, error = .ofToml cause ∧ tree.Holds path (Utf8.encode text) ∧
        Toml.read text = .error cause := by
  cases h with
  | unreachable h => exact .inl ⟨_, rfl, h⟩
  | undecodable hholds h => exact .inr (.inl ⟨_, _, rfl, hholds, h⟩)
  | refused hholds h => exact .inr (.inr ⟨_, _, rfl, hholds, h⟩)

theorem loadConfig_eq_iff {result : Except SettingsError Toml.Table} :
    loadConfig tree named directory = result ↔
      Configuration tree (configPath named directory) result :=
  eq_iff_of_exists (exists_configuration tree _) Configuration.loadConfig_eq

/-! ### The format -/

/-- The configuration asks for a format by a value that is the name of none. -/
def Refused (config : Toml.Table) (value : Toml.Value) : Prop :=
  config.setting? "output".toList "format".toList = some value ∧
    ∀ format : Format, value ≠ .string format.name

theorem ofName?_eq_some_iff {name : Text} {format : Format} :
    Format.ofName? name = some format ↔ name = format.name := by
  constructor
  · intro h
    have hname := List.find?_some h
    exact (of_decide_eq_true hname).symm
  · rintro rfl
    cases format <;> decide

theorem get?_outputTable (config : Toml.Table) (key : Text) :
    (outputTable config).get? key = config.setting? "output".toList key := by
  unfold outputTable Toml.Table.setting?
  rcases config.get? "output".toList with - | value
  · rfl
  · cases value <;> rfl

theorem configFormat_of_refused {config : Toml.Table} {value : Toml.Value}
    {obstacle : Option Toml.Unshowable} (h : Refused config value)
    (hshown : value.obstacle? Toml.mostLevels = obstacle) :
    configFormat (outputTable config) =
      .error (match obstacle with
        | none => .badFormat value
        | some cause => .unshowable cause) := by
  rw [configFormat, get?_outputTable, h.1]
  cases value with
  | string name =>
      have hnone : Format.ofName? name = none := by
        rw [Option.eq_none_iff_forall_ne_some]
        intro format hformat
        exact h.2 format (congrArg _ (ofName?_eq_some_iff.mp hformat))
      simp only [hnone, hshown]
      cases obstacle <;> rfl
  | _ =>
      simp only [hshown]
      cases obstacle <;> rfl

/-- A configuration of which no value is refused names a format or leaves it open. -/
theorem configFormat_of_accepted {config : Toml.Table} (h : ∀ value, ¬Refused config value) :
    config.setting? "output".toList "format".toList = none ∧
        configFormat (outputTable config) = .ok none ∨
      ∃ format : Format,
        config.setting? "output".toList "format".toList = some (.string format.name) ∧
          configFormat (outputTable config) = .ok (some format) := by
  cases hentry : config.setting? "output".toList "format".toList with
  | none =>
      refine .inl ⟨rfl, ?_⟩
      rw [configFormat, get?_outputTable, hentry]
  | some value =>
      have hname : ∃ format : Format, value = .string format.name :=
        Classical.not_forall_not.mp fun hnone => h value ⟨hentry, hnone⟩
      obtain ⟨format, rfl⟩ := hname
      refine .inr ⟨format, rfl, ?_⟩
      rw [configFormat, get?_outputTable, hentry]
      dsimp only
      rw [ofName?_eq_some_iff.mpr rfl]

/-! ### The settings -/

/-- The name of the format that is asked for: what the arguments say goes before what the
configuration says. -/
def Arguments.formatName (arguments : Arguments) (config : Toml.Table) : Text :=
  match arguments.format, config.setting? "output".toList "format".toList with
  | .given name, _ => name
  | .void, _ => []
  | .absent, some (.string name) => name
  | .absent, _ => Format.text.name

/-- Whether the end of file is to be listed. -/
def Arguments.listsEof (arguments : Arguments) (config : Toml.Table) : Bool :=
  match arguments.eof, config.setting? "output".toList "eof".toList with
  | some eof, _ => eof
  | none, some (.boolean eof) => eof
  | none, _ => true

/-- The settings that arguments and a configuration lead to. -/
def Arguments.settings (arguments : Arguments) (config : Toml.Table) : Settings where
  input := Path.ofText arguments.input
  output := arguments.outputPath?
  format := arguments.formatName config
  eof := arguments.listsEof config
  debug := arguments.debug

/-- The arguments come with a configuration of which no value is refused. -/
structure Accepts (tree : FileTree) (arguments : Arguments) (config : Toml.Table) : Prop where
  configuration : Configuration tree arguments.configFile (.ok config)
  not_refused : ∀ value, ¬Refused config value

/-- All that resolving the settings can come to. -/
inductive Resolution (tree : FileTree) (arguments : Arguments) :
    Except SettingsError Settings → Prop
  | unconfigured {error} (h : Configuration tree arguments.configFile (.error error)) :
      Resolution tree arguments (.error error)
  | unshowable {config value cause} (h : Configuration tree arguments.configFile (.ok config))
      (hrefused : Refused config value) (hshown : value.obstacle? Toml.mostLevels = some cause) :
      Resolution tree arguments (.error (.unshowable cause))
  | badFormat {config value} (h : Configuration tree arguments.configFile (.ok config))
      (hrefused : Refused config value) (hshown : value.obstacle? Toml.mostLevels = none) :
      Resolution tree arguments (.error (.badFormat value))
  | settings {config} (h : Accepts tree arguments config) :
      Resolution tree arguments (.ok (arguments.settings config))

variable {arguments : Arguments} {config : Toml.Table}

theorem exists_resolution (tree : FileTree) (arguments : Arguments) :
    ∃ result, Resolution tree arguments result := by
  obtain ⟨error | config, h⟩ := exists_configuration tree arguments.configFile
  · exact ⟨_, .unconfigured h⟩
  · by_cases hrefused : ∃ value, Refused config value
    · obtain ⟨value, hrefused⟩ := hrefused
      cases hshown : value.obstacle? Toml.mostLevels with
      | none => exact ⟨_, .badFormat h hrefused hshown⟩
      | some cause => exact ⟨_, .unshowable h hrefused hshown⟩
    · exact ⟨_, .settings ⟨h, not_exists.mp hrefused⟩⟩

theorem listsEof_eq (arguments : Arguments) (config : Toml.Table) :
    arguments.eof.getD ((configEof (outputTable config)).getD true) =
      arguments.listsEof config := by
  rw [Arguments.listsEof, configEof, get?_outputTable]
  cases arguments.eof with
  | some eof => rfl
  | none =>
      rcases config.setting? "output".toList "eof".toList with - | value
      · rfl
      · cases value <;> rfl

/-- With a configuration file that has been loaded, only its format can still be refused. -/
theorem resolve_of_configuration (h : Configuration tree arguments.configFile (.ok config)) :
    Settings.resolve tree arguments =
      (configFormat (outputTable config)).map fun format =>
        { arguments.settings config with format := effectiveFormat format arguments.format } := by
  rw [Settings.resolve, h.loadConfig_eq, Arguments.settings, ← listsEof_eq]
  show configFormat (outputTable config) >>= _ = _
  cases configFormat (outputTable config) <;> rfl

theorem Resolution.resolve_eq {result : Except SettingsError Settings}
    (h : Resolution tree arguments result) : Settings.resolve tree arguments = result := by
  cases h with
  | unconfigured h =>
      rw [Settings.resolve, h.loadConfig_eq]
      rfl
  | unshowable h hrefused hshown =>
      rw [resolve_of_configuration h, configFormat_of_refused hrefused hshown]
      rfl
  | badFormat h hrefused hshown =>
      rw [resolve_of_configuration h, configFormat_of_refused hrefused hshown]
      rfl
  | settings h =>
      rw [resolve_of_configuration h.configuration]
      obtain ⟨hentry, hformat⟩ | ⟨format, hentry, hformat⟩ :=
        configFormat_of_accepted h.not_refused
      · rw [hformat, Arguments.settings, Arguments.formatName, hentry]
        cases arguments.format <;> rfl
      · rw [hformat, Arguments.settings, Arguments.formatName, hentry]
        cases arguments.format <;> rfl

theorem resolve_eq_iff {result : Except SettingsError Settings} :
    Settings.resolve tree arguments = result ↔ Resolution tree arguments result :=
  eq_iff_of_exists (exists_resolution tree arguments) Resolution.resolve_eq

end Command
end LoxLexer
