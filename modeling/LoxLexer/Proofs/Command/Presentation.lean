import LoxLexer.Proofs.Command.Course
import LoxLexer.Proofs.Command.Insertion

/-!
# Options of presentation

The form of the listing, where it goes and whether debugging is asked for have no part in what is
found: runs of one input with one configuration file find the same and end alike.

* `execute_twice` — two such runs fail alike, or both deliver what is found in one text.
* `Annotates`, `Delivery.annotates` — debugging only surrounds what is said on standard error.
* `run_presentation` — what two such runs have in common.
-/

namespace LoxLexer
namespace Command

variable {tree : FileTree} {arguments arguments' : Arguments} {config : Toml.Table}

/-! ### Runs of one input with one configuration file -/

theorem Accepts.of_configFile_eq (h : Accepts tree arguments config)
    (hconfig : arguments'.configFile = arguments.configFile) : Accepts tree arguments' config where
  configuration := by
    rw [hconfig]
    exact h.configuration
  not_refused := h.not_refused

theorem Resolution.of_configFile_eq {error : SettingsError}
    (h : Resolution tree arguments (.error error))
    (hconfig : arguments'.configFile = arguments.configFile) :
    Resolution tree arguments' (.error error) := by
  cases h with
  | unconfigured h => exact .unconfigured (hconfig ▸ h)
  | unshowable h hrefused hshown => exact .unshowable (hconfig ▸ h) hrefused hshown
  | badFormat h hrefused hshown => exact .badFormat (hconfig ▸ h) hrefused hshown

/-- Two runs of one input with one configuration file fail alike before they deliver, or they
deliver the same. -/
theorem execute_twice (tree : FileTree) (hinput : arguments'.inputPath = arguments.inputPath)
    (hconfig : arguments'.configFile = arguments.configFile) :
    execute tree arguments' = execute tree arguments ∨
      ∃ config text, Accepts tree arguments config ∧ Accepts tree arguments' config ∧
        tree.read arguments.inputPath = .ok (Utf8.encode text) ∧
        Delivery tree (arguments.settings config) (analyse text.unifyLineEndings)
          (execute tree arguments) ∧
        Delivery tree (arguments'.settings config) (analyse text.unifyLineEndings)
          (execute tree arguments') := by
  obtain ⟨outcome, hcourse⟩ := exists_course tree arguments
  rw [hcourse.execute_eq]
  cases hcourse with
  | unresolved h => exact .inl (Course.unresolved (h.of_configFile_eq hconfig)).execute_eq
  | unread h hread =>
      rw [← hinput] at hread ⊢
      exact .inl (Course.unread (h.of_configFile_eq hconfig) hread).execute_eq
  | @delivered config text h hread =>
      have h' := h.of_configFile_eq hconfig
      refine .inr ⟨config, text, h, h', hread, deliver_delivery tree _ _, ?_⟩
      rw [(Course.delivered h' (hinput ▸ hread)).execute_eq]
      exact deliver_delivery tree _ _

/-! ### Debugging -/

/-- The second outcome is the first, but that more may be said before and after on standard
error. -/
structure Annotates (outcome outcome' : Outcome) : Prop where
  ending_eq : outcome'.ending = outcome.ending
  stdout_eq : outcome'.stdout = outcome.stdout
  tree_eq : outcome'.tree = outcome.tree
  stderr_eq : ∃ before after, outcome'.stderr = before ++ outcome.stderr ++ after

theorem Annotates.refl (outcome : Outcome) : Annotates outcome outcome where
  ending_eq := rfl
  stdout_eq := rfl
  tree_eq := rfl
  stderr_eq := ⟨[], [], by simp⟩

theorem remarksBefore_debug (settings : Settings) (analysis : Analysis) :
    ∃ before, { settings with debug := true }.remarksBefore analysis =
      before ++ settings.remarksBefore analysis := by
  unfold Settings.remarksBefore
  cases settings.debug with
  | true => exact ⟨[], rfl⟩
  | false => exact ⟨debugBefore analysis, rfl⟩

theorem remarksAfter_debug (settings : Settings) (analysis : Analysis) :
    ∃ after, { settings with debug := true }.remarksAfter analysis =
      settings.remarksAfter analysis ++ after := by
  unfold Settings.remarksAfter
  cases settings.debug with
  | true => exact ⟨[], (List.append_nil _).symm⟩
  | false => exact ⟨debugAfter analysis settings.input, rfl⟩

theorem Delivery.annotates {settings : Settings} {analysis : Analysis} {outcome outcome' : Outcome}
    (h : Delivery tree settings analysis outcome)
    (h' : Delivery tree { settings with debug := true } analysis outcome') :
    Annotates outcome outcome' := by
  obtain ⟨before, hbefore⟩ := remarksBefore_debug settings analysis
  obtain ⟨after, hafter⟩ := remarksAfter_debug settings analysis
  -- Output and content are the same, so each outcome has its like.
  cases h with
  | printed hnone =>
      cases h' with
      | printed => exact ⟨rfl, rfl, rfl, before, after, by simp [hbefore, hafter]⟩
      | written hsome | refused hsome => exact nomatch hnone.symm.trans hsome
  | written hsome hwrite =>
      cases h' with
      | printed hnone => exact nomatch hnone.symm.trans hsome
      | written hsome' hwrite' =>
          obtain rfl := Option.some.inj (hsome.symm.trans hsome')
          obtain rfl := Except.ok.inj (hwrite.symm.trans hwrite')
          exact ⟨rfl, rfl, rfl, before, after, by simp [hbefore, hafter]⟩
      | refused hsome' hwrite' =>
          obtain rfl := Option.some.inj (hsome.symm.trans hsome')
          exact nomatch hwrite.symm.trans hwrite'
  | refused hsome hwrite =>
      cases h' with
      | printed hnone => exact nomatch hnone.symm.trans hsome
      | written hsome' hwrite' =>
          obtain rfl := Option.some.inj (hsome.symm.trans hsome')
          exact nomatch hwrite.symm.trans hwrite'
      | refused hsome' hwrite' =>
          obtain rfl := Option.some.inj (hsome.symm.trans hsome')
          obtain rfl := Except.error.inj (hwrite.symm.trans hwrite')
          exact ⟨rfl, rfl, rfl, before, [], by simp [hbefore]⟩

theorem execute_withDebug (tree : FileTree) (arguments : Arguments) :
    Annotates (execute tree arguments) (execute tree arguments.withDebug) := by
  have hinput : arguments.withDebug.inputPath = arguments.inputPath := rfl
  have hconfig : arguments.withDebug.configFile = arguments.configFile := rfl
  obtain heq | ⟨config, text, -, -, -, h, h'⟩ := execute_twice tree hinput hconfig
  · rw [heq]
    exact .refl _
  · exact h.annotates h'

/-! ### The law -/

/-- Whatever else they ask for, two runs of one input with one configuration file end alike if they
can write what they are to write, and say the same on standard error if no debugging is asked for.
Debugging adds something there before and after and changes nothing else, wherever it is asked for
on a command line; and on each it can be. -/
theorem run_presentation (tree : FileTree) {words words' : List Text}
    (hread : Arguments.read words = .ok arguments)
    (hread' : Arguments.read words' = .ok arguments')
    (hinput : arguments'.inputPath = arguments.inputPath)
    (hconfig : arguments'.configFile = arguments.configFile) :
    (WritesOutput tree arguments → WritesOutput tree arguments' →
        (run tree words').ending = (run tree words).ending) ∧
      (arguments.debug = false → arguments'.debug = false →
        (run tree words').stderr = (run tree words).stderr) ∧
      (arguments' = arguments.withDebug → Annotates (run tree words) (run tree words')) ∧
      (∀ front back, words = front ++ back → words' = front ++ "--debug".toList :: back →
        arguments' = arguments.withDebug) ∧
      ∃ name rest, words = name :: rest ∧
        Arguments.read (name :: "--debug".toList :: rest) = .ok arguments.withDebug := by
  rw [run_of_read hread, run_of_read hread']
  refine ⟨?_, ?_, ?_, ?_, ?_⟩
  · intro hwrites hwrites'
    obtain heq | ⟨config, text, haccepts, haccepts', htext, h, h'⟩ :=
      execute_twice tree hinput hconfig
    · rw [heq]
    · rw [h.ending_eq fun path => hwrites config text path haccepts htext,
        h'.ending_eq fun path => hwrites' config text path haccepts' (hinput ▸ htext)]
  · intro hdebug hdebug'
    obtain heq | ⟨config, text, -, -, -, h, h'⟩ := execute_twice tree hinput hconfig
    · rw [heq]
    · rw [h.stderr_eq hdebug, h'.stderr_eq hdebug']
  · rintro rfl
    exact execute_withDebug tree arguments
  · rintro front back rfl rfl
    exact read_insert_debug hread hread'
  · obtain ⟨rest, rfl, -⟩ := exists_of_read hread
    exact ⟨tokenize, rest, rfl, by rw [read_debug, hread, Except.map]⟩

/-- A command line that asks for the listing in a file. -/
def fileWords : List Text := ["tokenize".toList, "a.lox".toList, "-olist".toList]

/-- What it asks for. -/
def fileArguments : Arguments := { input := "a.lox".toList, output := .given "list".toList }

/-- One that asks for debugging too. -/
def debugWords : List Text :=
  ["tokenize".toList, "a.lox".toList, "--debug".toList, "-olist".toList]

/-- An input with an error. -/
def faultyTree : FileTree := treeWithInput (Utf8.encode ['@'])

theorem run_presentation_debug :
    Arguments.read fileWords = .ok fileArguments ∧
      Arguments.read debugWords = .ok fileArguments.withDebug ∧
      (run faultyTree debugWords).ending = (run faultyTree fileWords).ending ∧
      Annotates (run faultyTree fileWords) (run faultyTree debugWords) := by
  have hread : Arguments.read fileWords = .ok fileArguments := read_of_toOption (by decide +kernel)
  have hread' : Arguments.read debugWords = .ok fileArguments.withDebug :=
    read_of_toOption (by decide +kernel)
  have hwrites {arguments : Arguments}
      (houtput : arguments.outputPath? = some (Path.ofText "list".toList)) :
      WritesOutput faultyTree arguments := by
    intro config text path _ _ hpath
    obtain rfl := Option.some.inj (houtput.symm.trans hpath)
    exact ⟨_, rfl⟩
  obtain ⟨hending, -, hannotates, hinsert, -⟩ := run_presentation faultyTree hread hread' rfl rfl
  have hdebug := hinsert ["tokenize".toList, "a.lox".toList] ["-olist".toList] rfl rfl
  exact ⟨hread, hread', hending (hwrites rfl) (hwrites rfl), hannotates hdebug⟩

end Command
end LoxLexer
