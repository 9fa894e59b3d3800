import LoxLexer.Command.Run
import LoxLexer.Proofs.Command.Configuration

/-!
# The course of a run

A run that has its arguments looks for its settings, reads the input and delivers its listing.  Each
step may put an end to it, with a status or by breaking off.

* `Course`, `execute_eq_iff` — the courses that a run can take.
* `readInput_eq_ok_iff` — the input is read if its bytes are those of a text.
* `misconfigured_returns`, `unreadable_returns` — the steps that fail with a status.
* `Delivery`, `deliver_delivery` — all that a delivery can come to.
* `WritesOutput` — nothing is in the way of the output file.
-/

namespace LoxLexer
namespace Command

/-- The path of the input. -/
def Arguments.inputPath (arguments : Arguments) : Path := Path.ofText arguments.input

/-- The listing that settings ask for. -/
def Settings.listing (settings : Settings) (tokens : List Token) : Text :=
  (Format.named settings.format).list settings.eof tokens

variable {tree : FileTree} {arguments : Arguments} {config : Toml.Table} {code : Nat}

/-! ### Reading the input -/

theorem readInput_eq_ok_iff {path : Path} {source : Text} :
    readInput tree path = .ok source ↔
      ∃ text, tree.read path = .ok (Utf8.encode text) ∧ source = text.unifyLineEndings := by
  unfold readInput
  rcases tree.read path with error | bytes
  · constructor
    · nofun
    · rintro ⟨text, htext, -⟩
      contradiction
  · show ((Utf8.decode bytes).mapError FileError.undecodable >>= _) = _ ↔ _
    rcases hdecode : Utf8.decode bytes with error | text
    · constructor
      · nofun
      · rintro ⟨text, htext, -⟩
        rw [Utf8.decode_eq_ok_iff.mpr (Except.ok.inj htext)] at hdecode
        contradiction
    · obtain rfl := Utf8.decode_eq_ok_iff.mp hdecode
      constructor
      · intro h
        exact ⟨text, rfl, (Except.ok.inj h).symm⟩
      · rintro ⟨text', htext, rfl⟩
        rw [Utf8.encode_injective (Except.ok.inj htext)]
        rfl

theorem readInput_eq_nullCharacter_iff {path : Path} :
    readInput tree path = .error (.inaccessible .nullCharacter) ↔ '\x00' ∈ path.toText := by
  rw [← tree.read_eq_nullCharacter_iff]
  unfold readInput
  rcases tree.read path with error | bytes
  · constructor
    · intro h
      exact congrArg _ (FileError.inaccessible.inj (Except.error.inj h))
    · intro h
      exact congrArg (Except.error ∘ FileError.inaccessible) (Except.error.inj h)
  · show ((Utf8.decode bytes).mapError FileError.undecodable >>= _) = _ ↔ _
    rcases Utf8.decode bytes with error | text
    · exact ⟨nofun, nofun⟩
    · exact ⟨nofun, nofun⟩

/-! ### The steps of a run -/

/-- The courses that a run can take. -/
inductive Course (tree : FileTree) (arguments : Arguments) : Outcome → Prop
  | unresolved {error} (h : Resolution tree arguments (.error error)) :
      Course tree arguments (misconfigured tree error)
  | unread {config error} (h : Accepts tree arguments config)
      (hread : readInput tree arguments.inputPath = .error error) :
      Course tree arguments (unreadable tree arguments.inputPath error)
  | delivered {config text} (h : Accepts tree arguments config)
      (hread : tree.read arguments.inputPath = .ok (Utf8.encode text)) :
      Course tree arguments
        (deliver tree (arguments.settings config) (analyse text.unifyLineEndings))

theorem exists_course (tree : FileTree) (arguments : Arguments) :
    ∃ outcome, Course tree arguments outcome := by
  obtain ⟨error | settings, h⟩ := exists_resolution tree arguments
  · exact ⟨_, .unresolved h⟩
  · cases h with
    | settings h =>
        rcases hread : readInput tree arguments.inputPath with error | source
        · exact ⟨_, .unread h hread⟩
        · obtain ⟨text, hread, -⟩ := readInput_eq_ok_iff.mp hread
          exact ⟨_, .delivered h hread⟩

theorem Course.execute_eq {outcome : Outcome} (h : Course tree arguments outcome) :
    execute tree arguments = outcome := by
  cases h with
  | unresolved h => rw [execute, h.resolve_eq]
  | @unread config error h hread =>
      have hinput : readInput tree (arguments.settings config).input = .error error := hread
      rw [execute, (Resolution.settings h).resolve_eq]
      simp only [hinput]
      rfl
  | @delivered config text h hread =>
      have hinput : readInput tree (arguments.settings config).input = .ok text.unifyLineEndings :=
        readInput_eq_ok_iff.mpr ⟨text, hread, rfl⟩
      rw [execute, (Resolution.settings h).resolve_eq]
      simp only [hinput]

theorem execute_eq_iff {outcome : Outcome} :
    execute tree arguments = outcome ↔ Course tree arguments outcome :=
  eq_iff_of_exists (exists_course tree arguments) Course.execute_eq

theorem read_of_toOption {words : List Text}
    (h : (Arguments.read words).toOption = some arguments) :
    Arguments.read words = .ok arguments := by
  rcases hread : Arguments.read words with notice | found
  · rw [hread] at h
    contradiction
  · rw [hread] at h
    exact congrArg _ (Option.some.inj h)

theorem run_of_read {words : List Text} (h : Arguments.read words = .ok arguments) :
    run tree words = execute tree arguments := by
  rw [run, h]

/-! ### The steps that end with a status -/

theorem exitCode?_of_status {outcome : Outcome} {status : Status}
    (h : outcome.ending = .status status) : outcome.exitCode? = some status.code := by
  rw [Outcome.exitCode?, h]

theorem misconfigured_returns {error : SettingsError}
    (h : (misconfigured tree error).exitCode? = some code) :
    (error = .malformed ∨ ∃ value, error = .badFormat value) ∧ code = 2 ∧
      (misconfigured tree error).stdout = [] ∧
      ∃ message, (misconfigured tree error).stderr = errorLine message := by
  cases error with
  | malformed => exact ⟨.inl rfl, (Option.some.inj h).symm, rfl, _, rfl⟩
  | badFormat value => exact ⟨.inr ⟨value, rfl⟩, (Option.some.inj h).symm, rfl, _, rfl⟩
  | _ => contradiction

theorem unreadable_returns {path : Path} {error : FileError}
    (h : (unreadable tree path error).exitCode? = some code) :
    code = 1 ∧ (unreadable tree path error).stdout = [] ∧
      ∃ message, (unreadable tree path error).stderr = errorLine message := by
  unfold unreadable at h ⊢
  split at h
  · contradiction
  · rw [if_neg ‹_›]
    exact ⟨(Option.some.inj h).symm, rfl, _, rfl⟩

/-! ### The delivery -/

theorem code_statusOf (analysis : Analysis) :
    (statusOf analysis).code = if analysis.report.errors = [] then 0 else 65 := by
  rw [statusOf, Report.hadError]
  rcases analysis.report.errors with - | ⟨error, errors⟩ <;> rfl

/-- What a delivery says on standard error before it writes the listing. -/
def Settings.remarksBefore (settings : Settings) (analysis : Analysis) : Text :=
  (if settings.debug then debugBefore analysis else []) ++ announcements analysis

/-- What it says there afterwards. -/
def Settings.remarksAfter (settings : Settings) (analysis : Analysis) : Text :=
  if settings.debug then debugAfter analysis settings.input else []

/-- What a delivery can come to: the listing is printed, or written to the output file, or refused
there. -/
inductive Delivery (tree : FileTree) (settings : Settings) (analysis : Analysis) : Outcome → Prop
  | printed (h : settings.output = none) :
      Delivery tree settings analysis {
        ending := .status (statusOf analysis)
        stdout := settings.listing analysis.tokens
        stderr := settings.remarksBefore analysis ++ settings.remarksAfter analysis
        tree }
  | written {path after} (h : settings.output = some path)
      (hwrite : tree.write path (Utf8.encode (settings.listing analysis.tokens)) = .ok after) :
      Delivery tree settings analysis {
        ending := .status (statusOf analysis)
        stderr := settings.remarksBefore analysis ++ settings.remarksAfter analysis
        tree := after }
  | refused {path error} (h : settings.output = some path)
      (hwrite : tree.write path (Utf8.encode (settings.listing analysis.tokens)) = .error error) :
      Delivery tree settings analysis {
        ending := .breakdown (.file (.inaccessible error))
        stderr := settings.remarksBefore analysis
        tree }

theorem deliver_delivery (tree : FileTree) (settings : Settings) (analysis : Analysis) :
    Delivery tree settings analysis (deliver tree settings analysis) := by
  unfold deliver
  rw [← Settings.listing, ← Settings.remarksBefore, ← Settings.remarksAfter]
  dsimp only
  split
  · exact .printed ‹_›
  · split
    · exact .written ‹_› ‹_›
    · exact .refused ‹_› ‹_›

variable {settings : Settings} {analysis : Analysis} {outcome : Outcome}

namespace Delivery

theorem exitCode?_eq (h : Delivery tree settings analysis outcome)
    (hcode : outcome.exitCode? = some code) : code = (statusOf analysis).code := by
  cases h with
  | refused => contradiction
  | _ => exact (Option.some.inj hcode).symm

theorem ending_eq (h : Delivery tree settings analysis outcome)
    (hwrites : ∀ path, settings.output = some path →
      ∃ after, tree.write path (Utf8.encode (settings.listing analysis.tokens)) = .ok after) :
    outcome.ending = .status (statusOf analysis) := by
  cases h with
  | refused hsome hwrite =>
      obtain ⟨after, hafter⟩ := hwrites _ hsome
      rw [hwrite] at hafter
      contradiction
  | _ => rfl

theorem stdout_eq (h : Delivery tree settings analysis outcome) :
    outcome.stdout = if settings.output = none then settings.listing analysis.tokens else [] := by
  cases h <;> simp [*]

/-- The errors are announced in one piece, and nothing else is said unless debugging is asked
for. -/
theorem exists_stderr_eq (h : Delivery tree settings analysis outcome) :
    ∃ before after, outcome.stderr = before ++ announcements analysis ++ after ∧
      (settings.debug = false → before = [] ∧ after = []) := by
  obtain ⟨before, hbefore, hquiet⟩ : ∃ before,
      settings.remarksBefore analysis = before ++ announcements analysis ∧
        (settings.debug = false → before = []) :=
    ⟨_, rfl, fun hdebug => by simp [hdebug]⟩
  have hafter : settings.debug = false → settings.remarksAfter analysis = [] := by
    intro hdebug
    simp [Settings.remarksAfter, hdebug]
  cases h with
  | refused =>
      refine ⟨before, [], ?_, fun hdebug => ⟨hquiet hdebug, rfl⟩⟩
      rw [List.append_nil]
      exact hbefore
  | _ =>
      refine ⟨before, settings.remarksAfter analysis, ?_,
        fun hdebug => ⟨hquiet hdebug, hafter hdebug⟩⟩
      dsimp only
      rw [hbefore]

theorem stderr_eq (h : Delivery tree settings analysis outcome) (hdebug : settings.debug = false) :
    outcome.stderr = announcements analysis := by
  obtain ⟨before, after, hstderr, hquiet⟩ := h.exists_stderr_eq
  obtain ⟨rfl, rfl⟩ := hquiet hdebug
  rw [hstderr, List.nil_append, List.append_nil]

theorem holds_output {path : Path} (h : Delivery tree settings analysis outcome)
    (hcode : outcome.exitCode? = some code) (houtput : settings.output = some path) :
    outcome.tree.Holds path (Utf8.encode (settings.listing analysis.tokens)) ∨
      tree.IsNullDevice path := by
  cases h with
  | printed hnone =>
      rw [hnone] at houtput
      contradiction
  | written hsome hwrite =>
      obtain rfl := Option.some.inj (hsome.symm.trans houtput)
      exact (FileTree.rewrites_of_write hwrite).imp FileTree.Rewrites.holds And.left
  | refused => contradiction

end Delivery

/-- Should the run come to write its listing to a file, it succeeds. -/
def WritesOutput (tree : FileTree) (arguments : Arguments) : Prop :=
  ∀ config text path, Accepts tree arguments config →
    tree.read arguments.inputPath = .ok (Utf8.encode text) →
    arguments.outputPath? = some path →
      ∃ after, tree.write path (Utf8.encode ((arguments.settings config).listing
        (analyse text.unifyLineEndings).tokens)) = .ok after

/-- A working directory with an input. -/
def treeWithInput (content : Bytes) : FileTree where
  entries := [([['w']], .directory), ([['w'], "a.lox".toList], .file content)]
  workingDirectory := [['w']]

end Command
end LoxLexer
