import LoxLexer.Command.Grammar
import LoxLexer.Command.Manual
import LoxLexer.Listing

/-!
# The arguments of the program

The program has one command, `tokenize`, with an input and a few options.  A command line either
makes `Arguments` or ends the program with a `Notice`: help that was asked for, or a mistake.

* `Setting` — an option that takes a value.
* `Arguments` — what a command line asks for.
* `Arguments.read` — the arguments of a command line.
-/

namespace LoxLexer
namespace Command

/-- An option that takes a value. -/
inductive Setting
  | absent
  /-- given, but its value was `--`: a separator is dropped even where it is a value -/
  | void
  | given (value : Text)
deriving DecidableEq

/-- What a command line asks for. -/
structure Arguments where
  input : Text
  output : Setting := .absent
  /-- the name of a format -/
  format : Setting := .absent
  /-- whether the end of file is to be listed, if the command line says so -/
  eof : Option Bool := none
  config : Setting := .absent
  debug : Bool := false
deriving DecidableEq

/-- How a command line ends the program: its status and what it prints. -/
structure Notice where
  status : Nat
  stdout : Text := []
  stderr : Text := []
deriving DecidableEq

/-- Help that was asked for. -/
def Notice.help (text : Text) : Notice := { status := 0, stdout := text }

/-- A mistake in the call of the program or command of a name. -/
def Notice.mistake (usage name message : Text) : Notice :=
  { status := 2, stderr := usage ++ name ++ ": error: ".toList ++ message ++ ['\n'] }

/-- What is said when arguments are missing. -/
def missingArguments (label : Text) : Text :=
  "the following arguments are required: ".toList ++ label

/-- What is said when arguments are left over. -/
def unrecognized (extras : List Text) : Text :=
  "unrecognized arguments: ".toList ++ Text.join [' '] extras

/-- What is said about a value that is not among the choices. -/
def invalidChoice (label value : Text) (choices : List Text) : Text :=
  aboutArgument label
    ("invalid choice: ".toList ++ value.quoted ++ " (choose from ".toList ++
      Text.join ", ".toList (choices.map Text.quoted) ++ [')'])

/-! ### The command -/

/-- The options of the command. -/
inductive Choice
  | help
  | output
  | format
  | omitEof
  | config
  | debug
deriving DecidableEq, Repr

/-- The names of the options of the command. -/
def tokenizeFlags : List (Flag Choice) :=
  [⟨["-h".toList, "--help".toList], false, .help⟩,
    ⟨["-o".toList, "--output".toList], true, .output⟩,
    ⟨["--format".toList], true, .format⟩,
    ⟨["--no-eof".toList], false, .omitEof⟩,
    ⟨["--config".toList], true, .config⟩,
    ⟨["--debug".toList], false, .debug⟩]

/-- What has been read of the command's arguments; the input may still be missing. -/
structure Draft where
  input : Option Text := none
  arguments : Arguments := { input := [] }
  extras : List Text := []

/-- The value of an option from its values on the command line.  There are grammars of options that
keep a value `--`; the one that is followed here drops it, as it drops a separator. -/
def settingOf (values : List Text) : Setting :=
  match values.erase "--".toList with
  | [] => .void
  | value :: _ => .given value

/-- A mistake in the call of the command. -/
def tokenizeMistake (message : Text) : Notice := .mistake tokenizeUsage tokenizeName message

/-- A setting that has to name a format, if it is given. -/
def formatSetting (label : Text) (setting : Setting) : Except Notice Setting :=
  let names := Format.all.map Format.name
  match setting with
  | .given name =>
    if name ∈ names then .ok setting
    else .error (tokenizeMistake (invalidChoice label name names))
  | _ => .ok setting

/-- The draft after an option was set. -/
def Draft.set (draft : Draft) (flag : Flag Choice) (values : List Text) : Except Notice Draft :=
  let arguments := draft.arguments
  match flag.meaning with
  | .help => .error (.help tokenizeHelp)
  | .output => .ok { draft with arguments := { arguments with output := settingOf values } }
  | .format => do
    let format ← formatSetting flag.label (settingOf values)
    return { draft with arguments := { arguments with format } }
  | .omitEof => .ok { draft with arguments := { arguments with eof := some false } }
  | .config => .ok { draft with arguments := { arguments with config := settingOf values } }
  | .debug => .ok { draft with arguments := { arguments with debug := true } }

/-- The draft after an event. -/
def Draft.step (draft : Draft) : Event Choice → Except Notice Draft
  | .set flag values => draft.set flag values
  | .operand arguments => .ok { draft with input := (arguments.erase "--".toList).head? }
  | .extra text => .ok { draft with extras := draft.extras ++ [text] }
  | .mistake message => .error (tokenizeMistake message)

/-- The arguments of the command, and those that are left over. -/
def readTokenize (words : List Text) : Except Notice (Arguments × List Text) := do
  let items ← (classify tokenizeFlags words).mapError tokenizeMistake
  let draft ← (events tokenizeFlags (some .one) items).foldlM Draft.step {}
  match draft.input with
  | none => .error (tokenizeMistake (missingArguments "input".toList))
  | some input => return ({ draft.arguments with input }, draft.extras)

/-! ### The program -/

/-- The program itself has one option, which asks for help. -/
def programFlags : List (Flag Unit) := [⟨["-h".toList, "--help".toList], false, ()⟩]

/-- A mistake in the call of the program. -/
def programMistake (message : Text) : Notice := .mistake programUsage programName message

/-- How messages refer to the command. -/
def commandLabel : Text := "COMMAND".toList

/-- What has been read of the program's arguments, and what is left over. -/
abbrev Progress := Option Arguments × List Text

/-- Carries out a command: its name and what follows it. -/
def carryOut (extras : List Text) : List Text → Except Notice Progress
  | [] => .ok (none, extras)
  | name :: words =>
    if name = tokenize then do
      let (arguments, more) ← readTokenize words
      return (some arguments, extras ++ more)
    else .error (programMistake (invalidChoice commandLabel name [tokenize]))

/-- The progress after an event. -/
def step (progress : Progress) : Event Unit → Except Notice Progress
  | .set _ _ => .error (.help programHelp)
  | .operand words => carryOut progress.2 words
  | .extra text => .ok (progress.1, progress.2 ++ [text])
  | .mistake message => .error (programMistake message)

/-- The arguments of a command line. -/
def Arguments.read (words : List Text) : Except Notice Arguments := do
  let items ← (classify programFlags words).mapError programMistake
  match ← (events programFlags (some .remaining) items).foldlM step (none, []) with
  | (none, _) => .error (programMistake (missingArguments commandLabel))
  | (some arguments, []) => return arguments
  | (some _, extras) => .error (programMistake (unrecognized extras))

end Command
end LoxLexer
