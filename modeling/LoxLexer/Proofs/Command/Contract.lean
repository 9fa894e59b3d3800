import LoxLexer.Proofs.Command.Course
import LoxLexer.Proofs.Cursor.Round
import LoxLexer.Proofs.Lexing.Shift
import LoxLexer.Proofs.Text.Lines

/-!
# What a run comes to

A run that ends by itself leaves a status that tells which step put an end to it.  If the input was
read, what it prints is what a cursor finds in the input; the settings have no part in that but the
form of the listing and where it goes.

* `Misconfigured` — the configuration file is malformed, or its format is none.
* `Delivers` — tokens and errors are where the settings want them.
* `Conforms`, `run_conforms` — status, listing and messages of every run that ends by itself.
-/

namespace LoxLexer
namespace Command

variable {tree : FileTree} {arguments : Arguments} {config : Toml.Table} {code : Nat}

/-! ### Faulty configurations -/

/-- The configuration file is malformed, or it asks for a format by a value that names none. -/
inductive Misconfigured (tree : FileTree) (arguments : Arguments) : Prop
  | malformed {text} (hholds : tree.Holds arguments.configFile (Utf8.encode text))
      (h : Toml.read text = .error .malformed)
  | badFormat {config value} (h : Configuration tree arguments.configFile (.ok config))
      (hrefused : Refused config value)

theorem Misconfigured.exists_resolution (h : Misconfigured tree arguments) :
    ∃ error, Resolution tree arguments (.error error) := by
  cases h with
  | malformed hholds h => exact ⟨_, .unconfigured (.refused hholds h)⟩
  | @badFormat config value h hrefused =>
      cases hshown : value.obstacle? Toml.mostLevels with
      | none => exact ⟨_, .badFormat h hrefused hshown⟩
      | some cause => exact ⟨_, .unshowable h hrefused hshown⟩

theorem Accepts.not_misconfigured (h : Accepts tree arguments config) :
    ¬Misconfigured tree arguments := by
  intro hmisconfigured
  obtain ⟨error, herror⟩ := hmisconfigured.exists_resolution
  exact nomatch (Resolution.settings h).resolve_eq.symm.trans herror.resolve_eq

theorem misconfigured_of_malformed (h : Resolution tree arguments (.error .malformed)) :
    Misconfigured tree arguments := by
  cases h with
  | unconfigured h =>
      obtain ⟨_, hcause, _⟩ | ⟨_, _, hcause, _⟩ | ⟨text, cause, hcause, hholds, h⟩ := h.error_cases
      · contradiction
      · contradiction
      · cases cause with
        | malformed => exact .malformed hholds h
        | _ => contradiction

theorem misconfigured_of_badFormat {value : Toml.Value}
    (h : Resolution tree arguments (.error (.badFormat value))) :
    Misconfigured tree arguments := by
  cases h with
  | unconfigured h =>
      obtain ⟨_, hcause, _⟩ | ⟨_, _, hcause, _⟩ | ⟨_, cause, hcause, _⟩ := h.error_cases
      · contradiction
      · contradiction
      · cases cause <;> contradiction
  | badFormat h hrefused _ => exact .badFormat h hrefused

/-! ### The delivery -/

/-- What a cursor has found is where the settings want it: the listing in the output file or on
standard output, and on standard error one line for each error. -/
structure Delivers (tree : FileTree) (settings : Settings) (found : Cursor) (outcome : Outcome) :
    Prop where
  stdout_eq : settings.output = none → outcome.stdout = settings.listing found.tokens
  output : ∀ path, settings.output = some path →
    outcome.stdout = [] ∧
      (outcome.tree.Holds path (Utf8.encode (settings.listing found.tokens)) ∨
        tree.IsNullDevice path)
  stderr_eq : settings.debug = false →
    outcome.stderr = found.report.errors.flatMap fun error => line error.announcement
  one_line : ∀ error ∈ found.report.errors, '\n' ∉ error.announcement

theorem lineFeed_notMem_announcement {error : LexicalError} (h : '\n' ∉ error.message) :
    '\n' ∉ error.announcement := by
  show '\n' ∉ "[line ".toList ++ Text.ofInt error.line ++ "] Error: ".toList ++ error.message
  intro hmem
  simp only [List.mem_append] at hmem
  obtain ((hlabel | hline) | hlabel) | hmessage := hmem
  · simp at hlabel
  · exact Text.lineFeed_notMem_ofInt error.line hline
  · simp at hlabel
  · exact h hmessage

theorem Delivery.delivers {settings : Settings} {source : Text} {found : Cursor}
    {outcome : Outcome} (h : Delivery tree settings (analyse source) outcome)
    (htokens : found.tokens = (analyse source).tokens)
    (herrors : found.report.errors = (analyse source).report.errors)
    (hcode : outcome.exitCode? = some code) : Delivers tree settings found outcome where
  stdout_eq houtput := by
    rw [h.stdout_eq, if_pos houtput, htokens]
  output path houtput := by
    rw [h.stdout_eq, houtput, htokens]
    exact ⟨rfl, h.holds_output hcode houtput⟩
  stderr_eq hdebug := by
    rw [h.stderr_eq hdebug, announcements, Report.messages, List.flatMap_map, herrors]
  one_line error herror := by
    rw [herrors] at herror
    exact lineFeed_notMem_announcement (lineFeed_notMem_message herror)

/-! ### The contract -/

/-- What is agreed about the outcome of a run that ends by itself with a status. -/
structure Conforms (tree : FileTree) (arguments : Arguments) (code : Nat) (outcome : Outcome) :
    Prop where
  eq_two_iff : code = 2 ↔ Misconfigured tree arguments
  eq_one_iff : code = 1 ↔ ¬Misconfigured tree arguments ∧
    ∀ text, tree.read arguments.inputPath ≠ .ok (Utf8.encode text)
  failed : code = 1 ∨ code = 2 →
    outcome.stdout = [] ∧ ∃ message, outcome.stderr = errorLine message
  delivered : ¬Misconfigured tree arguments →
    ∀ text, tree.read arguments.inputPath = .ok (Utf8.encode text) →
      ∃ config found, Configuration tree arguments.configFile (.ok config) ∧
        (Cursor.fresh text.unifyLineEndings).finish = (.ok found.tokens, found) ∧
        code = (if found.report.errors = [] then 0 else 65) ∧
        Delivers tree (arguments.settings config) found outcome

/-- Whatever the file tree and the arguments, a run that ends by itself conforms. -/
theorem run_conforms {words : List Text} (hread : Arguments.read words = .ok arguments)
    (hreturns : (run tree words).exitCode? = some code) :
    Conforms tree arguments code (run tree words) := by
  obtain ⟨outcome, hcourse⟩ := exists_course tree arguments
  rw [run_of_read hread, hcourse.execute_eq] at hreturns ⊢
  cases hcourse with
  | unresolved h =>
      obtain ⟨herror, rfl, hfailed⟩ := misconfigured_returns hreturns
      have hmisconfigured : Misconfigured tree arguments := by
        obtain rfl | ⟨value, rfl⟩ := herror
        · exact misconfigured_of_malformed h
        · exact misconfigured_of_badFormat h
      exact ⟨by simp [hmisconfigured], by simp [hmisconfigured], fun _ => hfailed,
        fun hnot => absurd hmisconfigured hnot⟩
  | unread h hinput =>
      obtain ⟨rfl, hfailed⟩ := unreadable_returns hreturns
      have hunread (text : Text) : tree.read arguments.inputPath ≠ .ok (Utf8.encode text) := by
        intro htext
        exact nomatch hinput.symm.trans (readInput_eq_ok_iff.mpr ⟨text, htext, rfl⟩)
      exact ⟨by simp [h.not_misconfigured], by simp [h.not_misconfigured, hunread],
        fun _ => hfailed, fun _ text htext => absurd htext (hunread text)⟩
  | @delivered config text h hinput =>
      obtain ⟨found, hfinish, htokens, herrors⟩ := Cursor.finish_fresh text.unifyLineEndings {}
      have hdelivery := deliver_delivery tree (arguments.settings config)
        (analyse text.unifyLineEndings)
      have herrors : found.report.errors = (analyse text.unifyLineEndings).report.errors := herrors
      have hcode : code = if found.report.errors = [] then 0 else 65 := by
        rw [herrors, ← code_statusOf]
        exact hdelivery.exitCode?_eq hreturns
      have hne : code ≠ 1 ∧ code ≠ 2 := by
        rw [hcode]
        split <;> decide
      refine ⟨?_, ?_, ?_, ?_⟩
      · simp [hne, h.not_misconfigured]
      · simp [hne, hinput]
      · simp [hne]
      · intro _ text' htext'
        obtain rfl := Utf8.encode_injective (Except.ok.inj (hinput.symm.trans htext'))
        exact ⟨config, found, h.configuration, hfinish, hcode,
          hdelivery.delivers htokens herrors hreturns⟩

/-- A working directory with an input whose first line has an error and ends with two characters,
and with a configuration file that leaves the end of file out. -/
def sampleTree : FileTree where
  entries := [([['w']], .directory),
    ([['w'], "a.lox".toList], .file (Utf8.encode "é\r\n1.5".toList)),
    ([['w'], "loxscan.toml".toList], .file (Utf8.encode "[output]\neof = false".toList))]
  workingDirectory := [['w']]

/-- A command line that asks for a listing in JSON in a file. -/
def sampleWords : List Text :=
  ["tokenize".toList, "a.lox".toList, "--format".toList, "json".toList, "-olist".toList]

/-- What it asks for. -/
def sampleArguments : Arguments where
  input := "a.lox".toList
  output := .given "list".toList
  format := .given "json".toList

theorem run_conforms_sample :
    Arguments.read sampleWords = .ok sampleArguments ∧
      (run sampleTree sampleWords).exitCode? = some 65 ∧
      Conforms sampleTree sampleArguments 65 (run sampleTree sampleWords) := by
  have hread : Arguments.read sampleWords = .ok sampleArguments :=
    read_of_toOption (by decide +kernel)
  have hreturns : (run sampleTree sampleWords).exitCode? = some 65 := by decide +kernel
  exact ⟨hread, hreturns, run_conforms hread hreturns⟩

end Command
end LoxLexer
