import LoxLexer.Proofs.Command.Contract
import LoxLexer.Proofs.Editor.Session
import LoxLexer.Proofs.Lexing.CarriageReturn

/-!
# What the command line and an editor say of one text

The command line announces the errors of an input, an editor shows those of a document.  Both
analyse a text, but an input is read with one line feed for each of its line endings, and a document
is taken as it is.  So they agree about a text unless it has a carriage return of another kind.

* `Diagnostic.announcement` — a diagnostic in the words of the command line.
* `StandsFor` — a document stands for the input that the command line reads.
* `run_agrees` — what is published about such a document is what is announced.
* `lone_return_disagrees` — a carriage return that ends a line for the command line alone.
-/

namespace LoxLexer
namespace Editor

open Command

/-- The line that would announce a diagnostic, whose own lines are counted from zero. -/
def Diagnostic.announcement (diagnostic : Diagnostic) : Text :=
  "[line ".toList ++ Text.ofInt (diagnostic.range.start.line + 1) ++ "] Error: ".toList ++
    diagnostic.message

/-! ### Diagnostics and announcements -/

theorem Position.line_of_ofInts {line character : Int} {position : Position}
    (h : Position.ofInts line character = .ok position) : (position.line : Int) = line := by
  unfold Position.ofInts at h
  split at h
  · rename_i hline
    split at h
    · obtain rfl := Except.ok.inj h
      exact Int.toNat_of_nonneg hline.1
    · contradiction
  · contradiction

theorem Range.line_of_ofCharacter {line character : Int} {range : Range}
    (h : Range.ofCharacter line character = .ok range) : (range.start.line : Int) = line := by
  unfold Range.ofCharacter at h
  cases hstart : Position.ofInts line character with
  | error fault =>
      rw [hstart] at h
      exact nomatch h
  | ok start =>
      rw [hstart] at h
      cases hstop : Position.ofInts line (character + 1) with
      | error fault =>
          rw [hstop] at h
          exact nomatch h
      | ok stop =>
          rw [hstop] at h
          rw [← Except.ok.inj h]
          exact Position.line_of_ofInts hstart

theorem Diagnostic.message_line_of_ofError {source : Text} {error : LexicalError}
    {diagnostic : Diagnostic} (h : Diagnostic.ofError source error = .ok diagnostic) :
    diagnostic.message = error.message ∧
      (diagnostic.range.start.line : Int) = error.line - 1 := by
  unfold Diagnostic.ofError at h
  cases hrange : Range.ofCharacter (error.line - 1) (column source error.offset) with
  | error fault =>
      rw [hrange] at h
      exact nomatch h
  | ok range =>
      rw [hrange] at h
      obtain rfl := Except.ok.inj h
      exact ⟨rfl, Range.line_of_ofCharacter hrange⟩

/-- A diagnostic says of an error what the announcement says, on the same line. -/
theorem Diagnostic.announcement_of_ofError {source : Text} {error : LexicalError}
    {diagnostic : Diagnostic} (h : Diagnostic.ofError source error = .ok diagnostic) :
    diagnostic.announcement = error.announcement := by
  obtain ⟨hmessage, hline⟩ := Diagnostic.message_line_of_ofError h
  have hnext : (diagnostic.range.start.line : Int) + 1 = error.line := by omega
  unfold Diagnostic.announcement LexicalError.announcement
  rw [hnext, hmessage]

theorem map_eq_of_mapM {α β γ ε : Type} {f : α → Except ε β} {g : α → γ} {g' : β → γ}
    (hf : ∀ {x y}, f x = .ok y → g' y = g x) {inputs : List α} {results : List β}
    (h : inputs.mapM f = .ok results) : results.map g' = inputs.map g := by
  induction inputs generalizing results with
  | nil =>
      obtain rfl := Except.ok.inj h
      rfl
  | cons x inputs ih =>
      rw [List.mapM_cons] at h
      rcases hx : f x with fault | y
      · rw [hx] at h
        contradiction
      · rcases hrest : inputs.mapM f with fault | rest
        · rw [hx, hrest] at h
          contradiction
        · rw [hx, hrest] at h
          obtain rfl := Except.ok.inj h
          rw [List.map_cons, List.map_cons, hf hx, ih hrest]

theorem diagnose_announcements {source : Text} {diagnostics : List Diagnostic}
    (h : diagnose source = .ok diagnostics) :
    diagnostics.map Diagnostic.announcement = (analyse source).report.messages :=
  map_eq_of_mapM Diagnostic.announcement_of_ofError h

/-! ### Texts and documents -/

/-- What is announced of errors depends on what they say and on which line. -/
theorem messages_eq_of_remarks {report report' : Report}
    (h : report.errors.map LexicalError.remark = report'.errors.map LexicalError.remark) :
    report.messages = report'.messages := by
  have hsay (errors : List LexicalError) : errors.map LexicalError.announcement =
      (errors.map LexicalError.remark).map fun (message, line) =>
        "[line ".toList ++ Text.ofInt line ++ "] Error: ".toList ++ message := by
    rw [List.map_map]
    rfl
  rw [Report.messages, Report.messages, hsay, hsay, h]

/-- A document stands for the input that holds a text: it is the text as the command line reads it,
or the text itself if carriage returns stand in it before line feeds only. -/
def StandsFor (document text : Text) : Prop :=
  document = text.unifyLineEndings ∨ document = text ∧ text.PairsReturns

theorem StandsFor.messages_eq {document text : Text} (h : StandsFor document text) :
    (analyse document).report.messages = (analyse text.unifyLineEndings).report.messages := by
  obtain rfl | ⟨rfl, hpairs⟩ := h
  · rfl
  · exact messages_eq_of_remarks (analyse_unifyLineEndings hpairs).2.symm

/-- A document cannot be shown only if it has more characters than there are coordinates. -/
theorem lt_length_of_diagnose_eq_error {document : Text} {fault : PositionError}
    (h : diagnose document = .error fault) : greatestCoordinate < document.length := by
  obtain ⟨diagnostics, hdiagnose, -⟩ | ⟨hlength, -⟩ := diagnose_cases document
  · rw [hdiagnose] at h
    contradiction
  · exact hlength

/-- Opening a document publishes its diagnostics, if it can be shown. -/
theorem Workspace.handle_opened (workspace : Workspace) {uri : Text} (document : Text)
    (huri : Address.check uri = .ok ()) :
    workspace.handle (.opened uri document) =
      match diagnose document with
      | .ok diagnostics => .ok (workspace.put uri document, [⟨uri, diagnostics⟩])
      | .error fault => .error (.misplaced fault) :=
  handle_of_store (store_opened huri)

/-! ### The law -/

/-- Whatever a document holds that stands for the input of a run, what is published when it is
opened is what the run announces: one line for each diagnostic, with its message and the number of
its line, counted from one.  The run ends with the status for errors if anything is published.
Nothing is published only of a document with more characters than there are coordinates. -/
theorem run_agrees {tree : FileTree} {words : List Text} {arguments : Arguments}
    {config : Toml.Table} {text document uri : Text} (workspace : Workspace)
    (hread : Arguments.read words = .ok arguments) (haccepts : Accepts tree arguments config)
    (hinput : tree.Holds arguments.inputPath (Utf8.encode text))
    (hdocument : StandsFor document text) (huri : Address.check uri = .ok ()) :
    (∃ diagnostics,
        workspace.handle (.opened uri document) =
            .ok (workspace.put uri document, [⟨uri, diagnostics⟩]) ∧
          (∃ before after, (run tree words).stderr =
              before ++ (diagnostics.flatMap fun diagnostic => line diagnostic.announcement) ++
                after ∧
            (arguments.debug = false → before = [] ∧ after = [])) ∧
          (∀ diagnostic ∈ diagnostics, '\n' ∉ diagnostic.announcement) ∧
          (WritesOutput tree arguments →
            (run tree words).exitCode? = some (if diagnostics = [] then 0 else 65))) ∨
      greatestCoordinate < document.length ∧
        ∃ fault, workspace.handle (.opened uri document) = .error (.misplaced fault) := by
  rw [workspace.handle_opened document huri, run_of_read hread,
    (Course.delivered haccepts hinput.read_eq).execute_eq]
  cases hdiagnose : diagnose document with
  | error fault => exact .inr ⟨lt_length_of_diagnose_eq_error hdiagnose, fault, rfl⟩
  | ok diagnostics =>
      have hdelivery := deliver_delivery tree (arguments.settings config)
        (analyse text.unifyLineEndings)
      -- published are the errors of the document, announced those of the text as it is read
      have hmessages : diagnostics.map Diagnostic.announcement =
          (analyse text.unifyLineEndings).report.messages :=
        (diagnose_announcements hdiagnose).trans hdocument.messages_eq
      refine .inl ⟨diagnostics, rfl, ?_, ?_, ?_⟩
      · obtain ⟨before, after, hstderr, hquiet⟩ := hdelivery.exists_stderr_eq
        rw [announcements, ← hmessages, List.flatMap_map] at hstderr
        exact ⟨before, after, hstderr, hquiet⟩
      · intro diagnostic hdiagnostic
        have hmem : diagnostic.announcement ∈ diagnostics.map Diagnostic.announcement :=
          List.mem_map_of_mem hdiagnostic
        rw [hmessages] at hmem
        obtain ⟨error, herror, heq⟩ := List.mem_map.mp hmem
        rw [← heq]
        exact lineFeed_notMem_announcement (lineFeed_notMem_message herror)
      · intro hwrites
        have hending := hdelivery.ending_eq fun path =>
          hwrites config text path haccepts hinput.read_eq
        have hnone : (analyse text.unifyLineEndings).report.errors = [] ↔ diagnostics = [] := by
          rw [← List.map_eq_nil_iff, ← Report.messages, ← hmessages, List.map_eq_nil_iff]
        rw [exitCode?_of_status hending, code_statusOf]
        simp only [hnone]

/-- A command line that asks for the tokens of an input. -/
def plainWords : List Text := ["tokenize".toList, "a.lox".toList]

/-- What it asks for. -/
def plainArguments : Arguments := { input := "a.lox".toList }

/-- The address of the input as a document. -/
def plainUri : Text := "file:///a.lox".toList

theorem accepts_plainArguments (content : Bytes) :
    Accepts (treeWithInput content) plainArguments [] where
  configuration := .absent rfl
  not_refused _ h := nomatch h.1

/-- A text of two lines, the first of which leaves a string unclosed; both end with a carriage
return and a line feed. -/
def twoLines : Text := "\"a\r\n@\r\n".toList

theorem run_agrees_twoLines :
    ∃ diagnostics,
      ({} : Workspace).handle (.opened plainUri twoLines) =
          .ok (({} : Workspace).put plainUri twoLines, [⟨plainUri, diagnostics⟩]) ∧
        (run (treeWithInput (Utf8.encode twoLines)) plainWords).stderr =
          diagnostics.flatMap (fun diagnostic => line diagnostic.announcement) ∧
        (run (treeWithInput (Utf8.encode twoLines)) plainWords).exitCode? =
          some (if diagnostics = [] then 0 else 65) := by
  have hread : Arguments.read plainWords = .ok plainArguments :=
    read_of_toOption (by decide +kernel)
  have hinput : (treeWithInput (Utf8.encode twoLines)).Holds plainArguments.inputPath
      (Utf8.encode twoLines) := ⟨_, rfl, rfl⟩
  have hdocument : StandsFor twoLines twoLines := .inr ⟨rfl, by decide⟩
  have huri : Address.check plainUri = .ok () := rfl
  have hwrites : WritesOutput (treeWithInput (Utf8.encode twoLines)) plainArguments :=
    fun _ _ _ _ _ hpath => nomatch hpath
  obtain ⟨diagnostics, hhandle, ⟨before, after, hstderr, hquiet⟩, -, hcode⟩ | ⟨hlength, -⟩ :=
    run_agrees {} hread (accepts_plainArguments _) hinput hdocument huri
  · obtain ⟨rfl, rfl⟩ := hquiet rfl
    rw [List.nil_append, List.append_nil] at hstderr
    exact ⟨diagnostics, hhandle, hstderr, hcode hwrites⟩
  · exact absurd hlength (by decide)

/-- What is published when a document is opened, in the words of the command line. -/
def published (document : Text) : Option (List Text) :=
  (({} : Workspace).handle (.opened plainUri document)).toOption.map fun step =>
    step.2.flatMap fun notification => notification.diagnostics.map Diagnostic.announcement

/-- A carriage return that stands alone ends a line for the command line, and a string or a comment
with it, but not for an editor. -/
theorem lone_return_disagrees :
    (run (treeWithInput (Utf8.encode "\r@".toList)) plainWords).stderr =
        "[line 2] Error: Unexpected character: @\n".toList ∧
      published "\r@".toList = some ["[line 1] Error: Unexpected character: @".toList] ∧
      (run (treeWithInput (Utf8.encode "\"\r\"".toList)) plainWords).exitCode? = some 65 ∧
      published "\"\r\"".toList = some [] := by
  decide +kernel

end Editor
end LoxLexer
