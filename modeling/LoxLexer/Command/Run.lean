import LoxLexer.Command.Settings
import LoxLexer.Lexing
import LoxLexer.Table
import LoxLexer.Text.LineEndings

/-!
# Running the program

A run takes a file tree and a command line.  It lists the tokens of the input, on standard output
or in a file, and announces its errors on standard error.

* `Status` — the statuses that the program ends with.
* `Outcome` — how a run ended, what it printed, and the file tree that it left.
* `run` — a run.
-/

namespace LoxLexer
namespace Command

/-- The statuses that the program ends with by itself. -/
inductive Status
  | success
  /-- the input cannot be read -/
  | unreadable
  /-- the configuration file is faulty -/
  | misconfigured
  /-- the input has lexical errors -/
  | defective
deriving DecidableEq, Repr

/-- The number of a status. -/
def Status.code : Status → Nat
  | success => 0
  | unreadable => 1
  | misconfigured => 2
  | defective => 65

/-- Why a run broke off. -/
inductive Breakdown
  | file (error : FileError)
  | settings (error : SettingsError)

/-- What a breakdown says. -/
def Breakdown.message : Breakdown → Text
  | file error => error.message
  | settings error => error.message

/-- How a run ended. -/
inductive Ending
  | notice (notice : Notice)
  | status (status : Status)
  | breakdown (cause : Breakdown)

/-- How a run ended, what it printed, and the file tree that it left. -/
structure Outcome where
  ending : Ending
  stdout : Text := []
  stderr : Text := []
  tree : FileTree

/-- The status that the program leaves behind, unless it broke off. -/
def Outcome.exitCode? (outcome : Outcome) : Option Nat :=
  match outcome.ending with
  | .notice notice => some notice.status
  | .status status => some status.code
  | .breakdown _ => none

/-- A line of text. -/
def line (text : Text) : Text := text ++ ['\n']

/-- A line about what went wrong. -/
def errorLine (message : Text) : Text := line ("error: ".toList ++ message)

/-- The text of the input, every line of which ends with a line feed. -/
def readInput (tree : FileTree) (path : Path) : Except FileError Text := do
  let bytes ← (tree.read path).mapError .inaccessible
  let text ← (Utf8.decode bytes).mapError .undecodable
  return text.unifyLineEndings

/-- Where the tokens of a source end: the line of the last. -/
def lastLine (tokens : List Token) : Int := (tokens.getLast?.map Token.line).getD 1

/-- What is logged about an analysis. -/
def analysisLog (analysis : Analysis) : Text :=
  line ("loxscan.scanner: scanned ".toList ++ Text.ofNat analysis.tokens.length ++
    " tokens, ".toList ++ Text.ofNat analysis.report.size ++ " errors, ".toList ++
    Text.ofInt (lastLine analysis.tokens) ++ " lines".toList)

/-- What is printed before the errors of an analysis when debugging. -/
def debugBefore (analysis : Analysis) : Text :=
  analysisLog analysis ++ Table.render analysis.tokens analysis.report.errors

/-- What is printed after the errors of an analysis when debugging. -/
def debugAfter (analysis : Analysis) (input : Path) : Text :=
  if analysis.report.hadError then
    line ("loxscan.cli: ".toList ++ Text.ofNat analysis.report.size ++
      " lexical errors in ".toList ++ input.toText)
  else []

/-- The lines that announce the errors of an analysis. -/
def announcements (analysis : Analysis) : Text := analysis.report.messages.flatMap line

/-- The status that an analysis leads to. -/
def statusOf (analysis : Analysis) : Status :=
  if analysis.report.hadError then .defective else .success

/-- Lists the tokens of an analysis. -/
def deliver (tree : FileTree) (settings : Settings) (analysis : Analysis) : Outcome :=
  let listing := (Format.named settings.format).list settings.eof analysis.tokens
  let before := (if settings.debug then debugBefore analysis else []) ++ announcements analysis
  let after := if settings.debug then debugAfter analysis settings.input else []
  let ending := .status (statusOf analysis)
  match settings.output with
  | none => { ending, stdout := listing, stderr := before ++ after, tree }
  | some path =>
    match tree.write path (Utf8.encode listing) with
    | .ok tree => { ending, stderr := before ++ after, tree }
    | .error error =>
      { ending := .breakdown (.file (.inaccessible error)), stderr := before, tree }

/-- The outcome when the input cannot be read. -/
def unreadable (tree : FileTree) (input : Path) (error : FileError) : Outcome :=
  if error = .inaccessible .nullCharacter then { ending := .breakdown (.file error), tree }
  else
    { ending := .status .unreadable
      stderr :=
        errorLine ("cannot read ".toList ++ input.toText ++ ": ".toList ++ error.message)
      tree }

/-- The outcome when there are no settings. -/
def misconfigured (tree : FileTree) (error : SettingsError) : Outcome :=
  match error with
  | .badFormat _ => { ending := .status .misconfigured, stderr := errorLine error.message, tree }
  | .malformed =>
    { ending := .status .misconfigured, stderr := errorLine "invalid config file: ".toList, tree }
  | _ => { ending := .breakdown (.settings error), tree }

/-- Carries out what the arguments ask for. -/
def execute (tree : FileTree) (arguments : Arguments) : Outcome :=
  match Settings.resolve tree arguments with
  | .error error => misconfigured tree error
  | .ok settings =>
    match readInput tree settings.input with
    | .error error => unreadable tree settings.input error
    | .ok source => deliver tree settings (analyse source)

/-- A run of the program. -/
def run (tree : FileTree) (words : List Text) : Outcome :=
  match Arguments.read words with
  | .error notice =>
    { ending := .notice notice, stdout := notice.stdout, stderr := notice.stderr, tree }
  | .ok arguments => execute tree arguments

end Command
end LoxLexer
