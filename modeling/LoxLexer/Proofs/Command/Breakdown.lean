import LoxLexer.Proofs.Command.Course

/-!
# Runs that break off

Only some failures lead to a status.  A configuration file whose bytes are those of no text, or an
output file that cannot be written, is not among them: such a run breaks off, whatever its input.

* `Breaks` — all reasons for which a run breaks off.
* `breaks_of_ending`, `Breaks.ending_eq` — a run breaks off for one of these reasons, and for each.
* `run_returns_iff` — which runs end with one of the statuses.
* `run_breaks_off` — not all do.
-/

namespace LoxLexer
namespace Command

/-- The reasons for which a run breaks off. -/
inductive Breaks (tree : FileTree) (arguments : Arguments) : Breakdown → Prop
  | unreachableConfig {error} (h : tree.isFile arguments.configFile = .error error) :
      Breaks tree arguments (.settings (.file (.inaccessible error)))
  | undecodableConfig {content error} (hholds : tree.Holds arguments.configFile content)
      (h : Utf8.decode content = .error error) :
      Breaks tree arguments (.settings (.file (.undecodable error)))
  | excessiveConfig {text error} (hholds : tree.Holds arguments.configFile (Utf8.encode text))
      (h : Toml.read text = .error error) (hmalformed : error ≠ .malformed) :
      Breaks tree arguments (.settings (.ofToml error))
  | unshowableFormat {config value cause}
      (h : Configuration tree arguments.configFile (.ok config)) (hrefused : Refused config value)
      (hshown : value.obstacle? Toml.mostLevels = some cause) :
      Breaks tree arguments (.settings (.unshowable cause))
  | nullCharacter {config} (h : Accepts tree arguments config)
      (hnull : '\x00' ∈ arguments.inputPath.toText) :
      Breaks tree arguments (.file (.inaccessible .nullCharacter))
  | unwritable {config text path error} (h : Accepts tree arguments config)
      (hread : tree.read arguments.inputPath = .ok (Utf8.encode text))
      (houtput : arguments.outputPath? = some path)
      (hwrite : tree.write path (Utf8.encode ((arguments.settings config).listing
        (analyse text.unifyLineEndings).tokens)) = .error error) :
      Breaks tree arguments (.file (.inaccessible error))

variable {tree : FileTree} {arguments : Arguments} {cause : Breakdown}

/-! ### The steps that break off -/

theorem ending_misconfigured_iff {error : SettingsError} :
    (misconfigured tree error).ending = .breakdown cause ↔
      cause = .settings error ∧ error ≠ .malformed ∧ ∀ value, error ≠ .badFormat value := by
  cases error <;> simp [misconfigured, eq_comm]

theorem ending_unreadable_iff {path : Path} {error : FileError} :
    (unreadable tree path error).ending = .breakdown cause ↔
      cause = .file error ∧ error = .inaccessible .nullCharacter := by
  unfold unreadable
  split
  · simp [*, eq_comm]
  · simp [*]

theorem Delivery.ending_iff {settings : Settings} {analysis : Analysis} {outcome : Outcome}
    (h : Delivery tree settings analysis outcome) :
    outcome.ending = .breakdown cause ↔
      ∃ path error, settings.output = some path ∧
        tree.write path (Utf8.encode (settings.listing analysis.tokens)) = .error error ∧
        cause = .file (.inaccessible error) := by
  cases h with
  | printed hnone => simp [hnone]
  | written hsome hwrite => simp [hsome, hwrite]
  | refused hsome hwrite => simp [hsome, hwrite, eq_comm]

theorem breaks_of_ending (h : (execute tree arguments).ending = .breakdown cause) :
    Breaks tree arguments cause := by
  obtain ⟨outcome, hcourse⟩ := exists_course tree arguments
  rw [hcourse.execute_eq] at h
  cases hcourse with
  | unresolved hresolution =>
      obtain ⟨rfl, hmalformed, hformat⟩ := ending_misconfigured_iff.mp h
      cases hresolution with
      | unconfigured hconfiguration =>
          obtain ⟨error, rfl, hfile⟩ | ⟨content, error, rfl, hholds, hdecode⟩ |
            ⟨text, error, rfl, hholds, htoml⟩ := hconfiguration.error_cases
          · exact .unreachableConfig hfile
          · exact .undecodableConfig hholds hdecode
          · refine .excessiveConfig hholds htoml ?_
            rintro rfl
            exact hmalformed rfl
      | unshowable hconfiguration hrefused hshown =>
          exact .unshowableFormat hconfiguration hrefused hshown
      | badFormat => exact absurd rfl (hformat _)
  | unread haccepts hread =>
      obtain ⟨rfl, rfl⟩ := ending_unreadable_iff.mp h
      exact .nullCharacter haccepts (readInput_eq_nullCharacter_iff.mp hread)
  | delivered haccepts hread =>
      obtain ⟨path, error, houtput, hwrite, rfl⟩ := (deliver_delivery tree _ _).ending_iff.mp h
      exact .unwritable haccepts hread houtput hwrite

theorem Breaks.ending_eq (h : Breaks tree arguments cause) :
    (execute tree arguments).ending = .breakdown cause := by
  cases h with
  | unreachableConfig h =>
      rw [(Course.unresolved (.unconfigured (.unreachable h))).execute_eq]
      rfl
  | undecodableConfig hholds h =>
      rw [(Course.unresolved (.unconfigured (.undecodable hholds h))).execute_eq]
      rfl
  | @excessiveConfig text error hholds h hmalformed =>
      rw [(Course.unresolved (.unconfigured (.refused hholds h))).execute_eq]
      cases error with
      | malformed => contradiction
      | _ => rfl
  | unshowableFormat h hrefused hshown =>
      rw [(Course.unresolved (.unshowable h hrefused hshown)).execute_eq]
      rfl
  | nullCharacter h hnull =>
      rw [(Course.unread h (readInput_eq_nullCharacter_iff.mpr hnull)).execute_eq]
      rfl
  | unwritable h hread houtput hwrite =>
      rw [(Course.delivered h hread).execute_eq]
      exact (deliver_delivery tree _ _).ending_iff.mpr ⟨_, _, houtput, hwrite, rfl⟩

theorem ending_eq_breakdown_iff :
    (execute tree arguments).ending = .breakdown cause ↔ Breaks tree arguments cause :=
  ⟨breaks_of_ending, Breaks.ending_eq⟩

/-! ### Runs that end with a status -/

theorem Delivery.exists_ending {settings : Settings} {analysis : Analysis} {outcome : Outcome}
    (h : Delivery tree settings analysis outcome) :
    (∃ status, outcome.ending = .status status) ∨ ∃ cause, outcome.ending = .breakdown cause := by
  cases h with
  | refused => exact .inr ⟨_, rfl⟩
  | _ => exact .inl ⟨_, rfl⟩

/-- A run that has its arguments ends with one of the statuses or breaks off. -/
theorem exists_status_or_breakdown (tree : FileTree) (arguments : Arguments) :
    (∃ status, (execute tree arguments).ending = .status status) ∨
      ∃ cause, (execute tree arguments).ending = .breakdown cause := by
  obtain ⟨outcome, hcourse⟩ := exists_course tree arguments
  rw [hcourse.execute_eq]
  cases hcourse with
  | @unresolved error h => cases error <;> simp [misconfigured]
  | unread h hread =>
      unfold unreadable
      split <;> simp
  | delivered h hread => exact (deliver_delivery tree _ _).exists_ending

theorem code_mem (status : Status) : status.code ∈ [0, 1, 2, 65] := by
  cases status <;> decide

/-- A run that has its arguments breaks off for one of the reasons, or it ends with one of the
statuses; with the one for a faulty configuration if the file is a text but malformed. -/
theorem run_returns_iff {words : List Text} (hread : Arguments.read words = .ok arguments) :
    (∀ cause, (run tree words).ending = .breakdown cause ↔ Breaks tree arguments cause) ∧
      ((∃ code ∈ [0, 1, 2, 65], (run tree words).exitCode? = some code) ↔
        ∀ cause, ¬Breaks tree arguments cause) ∧
      ∀ text, tree.Holds arguments.configFile (Utf8.encode text) →
        Toml.read text = .error .malformed → (run tree words).exitCode? = some 2 := by
  rw [run_of_read hread]
  refine ⟨fun cause => ending_eq_breakdown_iff, ?_, ?_⟩
  · constructor
    · rintro ⟨code, -, hcode⟩ cause hbreaks
      rw [Outcome.exitCode?, hbreaks.ending_eq] at hcode
      contradiction
    · intro hnone
      obtain ⟨status, hstatus⟩ | ⟨cause, hcause⟩ := exists_status_or_breakdown tree arguments
      · exact ⟨status.code, code_mem status, exitCode?_of_status hstatus⟩
      · exact absurd (breaks_of_ending hcause) (hnone cause)
  · intro text hholds htoml
    rw [(Course.unresolved (.unconfigured (.refused hholds htoml))).execute_eq]
    rfl

/-- A working directory with an empty input and a configuration file of the content. -/
def treeWithConfig (content : Bytes) : FileTree where
  entries := [([['w']], .directory), ([['w'], "a.lox".toList], .file []),
    ([['w'], "loxscan.toml".toList], .file content)]
  workingDirectory := [['w']]

theorem run_returns_iff_malformed :
    Arguments.read ["tokenize".toList, "a.lox".toList] = .ok { input := "a.lox".toList } ∧
      (∀ cause, (run (treeWithConfig (Utf8.encode ['=']))
          ["tokenize".toList, "a.lox".toList]).ending = .breakdown cause ↔
        Breaks (treeWithConfig (Utf8.encode ['='])) { input := "a.lox".toList } cause) ∧
      (run (treeWithConfig (Utf8.encode ['='])) ["tokenize".toList, "a.lox".toList]).exitCode? =
        some 2 := by
  have hread : Arguments.read ["tokenize".toList, "a.lox".toList] =
      .ok { input := "a.lox".toList } := read_of_toOption (by decide +kernel)
  obtain ⟨hbreaks, -, hmalformed⟩ := run_returns_iff hread
  refine ⟨hread, hbreaks, hmalformed ['='] ⟨_, rfl, rfl⟩ rfl⟩

/-- No status is left if the configuration file is not UTF-8, or if the output file is a
directory. -/
theorem run_breaks_off :
    (Arguments.read ["tokenize".toList, "a.lox".toList] = .ok { input := "a.lox".toList } ∧
      (run (treeWithConfig [0xff]) ["tokenize".toList, "a.lox".toList]).exitCode? = none) ∧
    Arguments.read ["tokenize".toList, "a.lox".toList, "-o.".toList] =
        .ok { input := "a.lox".toList, output := .given ['.'] } ∧
      (run (treeWithConfig []) ["tokenize".toList, "a.lox".toList, "-o.".toList]).exitCode? =
        none := by
  refine ⟨⟨?_, ?_⟩, ?_, ?_⟩
  · exact read_of_toOption (by decide +kernel)
  · decide +kernel
  · exact read_of_toOption (by decide +kernel)
  · decide +kernel

end Command
end LoxLexer
