import LoxLexer.Command.Arguments
import LoxLexer.Storage.FileTree
import LoxLexer.Toml.Document
import LoxLexer.Toml.Shown

/-!
# Settings

What the program is to do follows from its arguments and from a configuration file.  The file may
be named by the arguments; otherwise it is `loxscan.toml` in the directory of the input.  A file
that does not exist counts as empty.  Arguments win over the file.

* `loadConfig` — the table of the configuration file.
* `Settings.resolve` — the settings from the arguments and the configuration file.
* `SettingsError` — why there are none.
-/

namespace LoxLexer
namespace Command

/-- Why a file cannot be used. -/
inductive FileError
  | inaccessible (error : AccessError)
  | undecodable (error : Utf8.DecodeError)
deriving DecidableEq

/-- What a failure to use a file says. -/
def FileError.message : FileError → Text
  | inaccessible error => error.message
  | undecodable error => error.message

/-- Why there are no settings. -/
inductive SettingsError
  | file (error : FileError)
  /-- the configuration file is no TOML document -/
  | malformed
  /-- a decimal integer of so many digits, which is too many to be read -/
  | tooManyDigits (count : Nat)
  /-- the configuration file has values within values beyond the limit -/
  | tooDeep
  /-- the format in the configuration file is none, and it cannot be shown -/
  | unshowable (cause : Toml.Unshowable)
  /-- the format in the configuration file is none -/
  | badFormat (value : Toml.Value)

/-- The limit on the digits of integers, as messages put it. -/
def digitLimit : Text :=
  "Exceeds the limit (".toList ++ Text.ofNat Toml.mostDigits ++
    " digits) for integer string conversion".toList

/-- Advice on the limit on the digits of integers. -/
def digitAdvice : Text := "; use sys.set_int_max_str_digits() to increase the limit".toList

/-- What is said about values within values beyond a limit. -/
def depthLimit : Text := "maximum recursion depth exceeded".toList

/-- What a failure to make settings says.  What is wrong with a malformed file is not told. -/
def SettingsError.message : SettingsError → Text
  | file error => error.message
  | malformed => []
  | tooManyDigits count =>
    digitLimit ++ ": value has ".toList ++ Text.ofNat count ++ " digits".toList ++ digitAdvice
  | tooDeep => depthLimit
  | unshowable .tooManyDigits => digitLimit ++ digitAdvice
  | unshowable .tooDeep => depthLimit ++ " while getting the repr of an object".toList
  | badFormat value =>
    "invalid output format in config (expected one of ".toList ++
      Text.join ", ".toList (Format.all.map Format.name) ++ "): ".toList ++ value.shown

/-- The name of the configuration file in the directory of the input. -/
def configName : Text := "loxscan.toml".toList

/-- The path of the configuration file: the one that is named, or the one in the directory. -/
def configPath (named : Option Path) (directory : Path) : Path :=
  named.getD (directory.child configName)

/-- The table of the configuration file; empty if it does not exist. -/
def loadConfig (tree : FileTree) (named : Option Path) (directory : Path) :
    Except SettingsError Toml.Table := do
  let path := configPath named directory
  let isFile ← (tree.isFile path).mapError (.file ∘ .inaccessible)
  if ¬isFile then return []
  let bytes ← (tree.read path).mapError (.file ∘ .inaccessible)
  let text ← (Utf8.decode bytes).mapError (.file ∘ .undecodable)
  (Toml.read text).mapError fun
    | .malformed => .malformed
    | .tooManyDigits count => .tooManyDigits count
    | .tooDeep => .tooDeep

/-- What the program is to do. -/
structure Settings where
  input : Path
  output : Option Path
  /-- the name of the format; any other name than that of a format asks for plain text -/
  format : Text
  eof : Bool
  debug : Bool
deriving DecidableEq

/-- The value of a setting, if it is given and not empty. -/
def nonempty? : Setting → Option Text
  | .given (c :: rest) => some (c :: rest)
  | _ => none

/-- The configuration file that the arguments name. -/
def Arguments.configPath? (arguments : Arguments) : Option Path :=
  (nonempty? arguments.config).map Path.ofText

/-- The file that the arguments name for the output. -/
def Arguments.outputPath? (arguments : Arguments) : Option Path :=
  (nonempty? arguments.output).map Path.ofText

/-- The table of a configuration file that concerns the output. -/
def outputTable (config : Toml.Table) : Toml.Table :=
  match config.get? "output".toList with
  | some (.table entries) => entries
  | _ => []

/-- The format that a configuration file asks for. -/
def configFormat (output : Toml.Table) : Except SettingsError (Option Format) :=
  match output.get? "format".toList with
  | none => .ok none
  | some value =>
    let format? := match value with
      | .string name => Format.ofName? name
      | _ => none
    match format? with
    | some format => .ok (some format)
    | none =>
      match value.obstacle? Toml.mostLevels with
      | none => .error (.badFormat value)
      | some cause => .error (.unshowable cause)

/-- Whether a configuration file asks for the end of file to be listed, if it says so. -/
def configEof (output : Toml.Table) : Option Bool :=
  match output.get? "eof".toList with
  | some (.boolean value) => some value
  | _ => none

/-- The name of the format that the arguments and the configuration file ask for.  Arguments are
taken at their word. -/
def effectiveFormat (config : Option Format) : Setting → Text
  | .absent => (config.getD .text).name
  | .void => []
  | .given name => name

/-- The settings that follow from arguments and a configuration file. -/
def Settings.resolve (tree : FileTree) (arguments : Arguments) : Except SettingsError Settings := do
  let input := Path.ofText arguments.input
  let output := outputTable (← loadConfig tree arguments.configPath? input.parent)
  let format ← configFormat output
  return {
    input
    output := arguments.outputPath?
    format := effectiveFormat format arguments.format
    eof := arguments.eof.getD ((configEof output).getD true)
    debug := arguments.debug }

end Command
end LoxLexer
