import LoxLexer.Proofs.Command.Course

/-!
# What a run leaves of the files

A run writes at most once, and that is the last thing in it that can fail.  So whoever finds the
listing in the output file also finds every other file as it was, and a run that failed has touched
none.  As the input and the configuration file are read before, either may be the output file too.

* `Delivery.tree_of_breakdown`, `Delivery.tree_of_status` — the file tree after a delivery.
* `KeepsFiles`, `run_keepsFiles` — the file tree after every run.
-/

namespace LoxLexer
namespace Command

variable {tree : FileTree} {settings : Settings} {analysis : Analysis} {outcome : Outcome}

theorem misconfigured_tree (tree : FileTree) (error : SettingsError) :
    (misconfigured tree error).tree = tree := by
  cases error <;> rfl

theorem unreadable_tree (tree : FileTree) (input : Path) (error : FileError) :
    (unreadable tree input error).tree = tree := by
  unfold unreadable
  split <;> rfl

theorem Delivery.tree_of_breakdown {cause : Breakdown}
    (h : Delivery tree settings analysis outcome) (hending : outcome.ending = .breakdown cause) :
    outcome.tree = tree := by
  cases h with
  | refused => rfl
  | _ => contradiction

theorem Delivery.tree_of_status {status : Status} (h : Delivery tree settings analysis outcome)
    (hending : outcome.ending = .status status) :
    (settings.output = none → outcome.tree = tree) ∧
      ∀ path, settings.output = some path →
        tree.Rewrites path (Utf8.encode (settings.listing analysis.tokens)) outcome.tree ∨
          tree.IsNullDevice path ∧ outcome.tree = tree := by
  cases h with
  | printed hnone => simp [hnone]
  | written hsome hwrite => simpa [hsome] using FileTree.rewrites_of_write hwrite
  | refused => contradiction

/-- The file tree that a run of the command line leaves: as it was unless the run could deliver, and
then changed by the listing in the output file at most.  Configuration and input are those of the
file tree that the run began with. -/
structure KeepsFiles (tree : FileTree) (words : List Text) (outcome : Outcome) : Prop where
  notice : ∀ notice, outcome.ending = .notice notice → outcome.tree = tree
  breakdown : ∀ cause, outcome.ending = .breakdown cause → outcome.tree = tree
  failed : ∀ status, outcome.ending = .status status → status.code = 1 ∨ status.code = 2 →
    outcome.tree = tree
  delivered : ∀ status, outcome.ending = .status status → status.code = 0 ∨ status.code = 65 →
    ∃ arguments config text, Arguments.read words = .ok arguments ∧
      Accepts tree arguments config ∧
      tree.read arguments.inputPath = .ok (Utf8.encode text) ∧
      (arguments.outputPath? = none → outcome.tree = tree) ∧
      ∀ path, arguments.outputPath? = some path →
        tree.Rewrites path (Utf8.encode ((arguments.settings config).listing
          (analyse text.unifyLineEndings).tokens)) outcome.tree ∨
        tree.IsNullDevice path ∧ outcome.tree = tree

/-- A run that fails before it delivers keeps every file. -/
theorem keepsFiles_of_failure {words : List Text} (htree : outcome.tree = tree)
    (hcode : ∀ status, outcome.ending = .status status → status.code = 1 ∨ status.code = 2) :
    KeepsFiles tree words outcome where
  notice _ _ := htree
  breakdown _ _ := htree
  failed _ _ _ := htree
  delivered status hending hdelivered := by
    have := hcode status hending
    omega

theorem keepsFiles_of_delivery {words : List Text} {arguments : Arguments} {config : Toml.Table}
    {text : Text} (hwords : Arguments.read words = .ok arguments)
    (haccepts : Accepts tree arguments config)
    (hread : tree.read arguments.inputPath = .ok (Utf8.encode text))
    (h : Delivery tree (arguments.settings config) (analyse text.unifyLineEndings) outcome) :
    KeepsFiles tree words outcome where
  notice notice hending := by cases h <;> contradiction
  breakdown _ hending := h.tree_of_breakdown hending
  failed status hending hfailed := by
    have hcode := (h.exitCode?_eq (exitCode?_of_status hending)).trans (code_statusOf _)
    split at hcode <;> omega
  delivered _ hending _ :=
    ⟨arguments, config, text, hwords, haccepts, hread, h.tree_of_status hending⟩

/-- Whatever the file tree and the command line, a run changes no file but the output file, and that
one only if it delivers. -/
theorem run_keepsFiles (tree : FileTree) (words : List Text) :
    KeepsFiles tree words (run tree words) := by
  rcases hwords : Arguments.read words with notice | arguments
  · rw [run, hwords]
    exact keepsFiles_of_failure rfl (by simp)
  · obtain ⟨outcome, hcourse⟩ := exists_course tree arguments
    rw [run_of_read hwords, hcourse.execute_eq]
    cases hcourse with
    | unresolved h =>
        refine keepsFiles_of_failure (misconfigured_tree tree _) fun status hending => ?_
        exact .inr (misconfigured_returns (exitCode?_of_status hending)).2.1
    | unread h hread =>
        refine keepsFiles_of_failure (unreadable_tree tree _ _) fun status hending => ?_
        exact .inl (unreadable_returns (exitCode?_of_status hending)).1
    | delivered h hread =>
        exact keepsFiles_of_delivery hwords h hread (deliver_delivery tree _ _)

/-- The listing of an input may take its place. -/
example : ((run (treeWithInput (Utf8.encode "1.5".toList))
      ["tokenize".toList, "a.lox".toList, "-oa.lox".toList]).tree.read
        (Path.ofText "a.lox".toList)).toOption =
    some (Utf8.encode "NUMBER 1.5 1.5\nEOF  null\n".toList) := by
  decide +kernel

end Command
end LoxLexer
