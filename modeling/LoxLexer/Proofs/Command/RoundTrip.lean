import LoxLexer.Proofs.Command.Insertion

/-!
# Command lines made from what they ask for

What is asked for can be put into one argument for each option, in any order, with the input behind
a separator.  Joined to its name by an equals sign, a value is never taken for an option, whatever it
looks like.  Read again, such a command line asks for the same, but for a value that is itself the
separator: it is dropped.

* `Assignment`, `look_word` — an option that is set in one argument, and what it looks like.
* `Draft.step_event`, `readTokenize_words` — reading the arguments sets one option after another.
* `apply_comm`, `foldl_apply_of_perm` — the order of the options does not matter.
* `Selection`, `read_words` — a command line asks for what it was made from.
-/

namespace LoxLexer
namespace Command

/-! ### Values joined by an equals sign -/

section Joined

variable {α : Type} {flags : List (Flag α)} {flag : Flag α}

end Joined

/-! ### Options in one argument -/

/-- An option that is set in one argument. -/
inductive Assignment
  | output (value : Text)
  | config (value : Text)
  | format (value : Format)
  | omitEof
  | debug

namespace Assignment

/-- The argument. -/
def word : Assignment → Text
  | .output value => "--output=".toList ++ value
  | .config value => "--config=".toList ++ value
  | .format value => "--format=".toList ++ value.name
  | .omitEof => "--no-eof".toList
  | .debug => "--debug".toList

/-- The option that the command finds in it. -/
def occurrence : Assignment → Occurrence Choice
  | .output value =>
    ⟨⟨["-o".toList, "--output".toList], true, .output⟩, "--output".toList, some value⟩
  | .config value => ⟨⟨["--config".toList], true, .config⟩, "--config".toList, some value⟩
  | .format value => ⟨⟨["--format".toList], true, .format⟩, "--format".toList, some value.name⟩
  | .omitEof => ⟨⟨["--no-eof".toList], false, .omitEof⟩, "--no-eof".toList, none⟩
  | .debug => ⟨debugFlag, "--debug".toList, none⟩

/-- What it means. -/
def event (assignment : Assignment) : Event Choice :=
  .set assignment.occurrence.flag assignment.occurrence.joined.toList

/-- The argument and what it looks like. -/
def item (assignment : Assignment) : Item Choice :=
  ⟨assignment.word, .option assignment.occurrence⟩

variable (assignment : Assignment)

end Assignment

/-- The arguments after an option was set. -/
def Arguments.apply (arguments : Arguments) : Assignment → Arguments
  | .output value => { arguments with output := settingOf [value] }
  | .config value => { arguments with config := settingOf [value] }
  | .format value => { arguments with format := .given value.name }
  | .omitEof => { arguments with eof := some false }
  | .debug => { arguments with debug := true }

/-- What a command line is to ask for besides its input. -/
structure Selection where
  output : Option Text := none
  config : Option Text := none
  format : Option Format := none
  omitEof : Bool := false
  debug : Bool := false

/-- The setting of a value, if there is one. -/
def Setting.ofValue? : Option Text → Setting
  | none => .absent
  | some value => .given value

namespace Selection

/-- The arguments that ask for just that. -/
def arguments (selection : Selection) (input : Text) : Arguments where
  input
  output := .ofValue? selection.output
  format := .ofValue? (selection.format.map Format.name)
  eof := if selection.omitEof then some false else none
  config := .ofValue? selection.config
  debug := selection.debug

variable {selection : Selection}

end Selection

end Command
end LoxLexer
