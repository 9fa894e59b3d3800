import LoxLexer.Text.Basic

/-!
# The manual of the program

The names by which the program and its command are known, and the texts that explain how to call
them.
-/

namespace LoxLexer
namespace Command

/-- The name of the program. -/
def programName : Text := "loxscan".toList

/-- The version of the program. -/
def programVersion : Text := "0.1.0".toList

/-- The name of the command. -/
def tokenize : Text := "tokenize".toList

/-- The name of the program and its command. -/
def tokenizeName : Text := programName ++ ' ' :: tokenize

/-- Lines of text. -/
def lines (content : List String) : Text := content.flatMap fun line => line.toList ++ ['\n']

/-- How to call the program. -/
def programUsage : Text := lines ["usage: loxscan [-h] COMMAND ..."]

/-- What the program does. -/
def programHelp : Text :=
  programUsage ++ lines [
    "",
    "Lox lexical analyzer",
    "",
    "positional arguments:",
    "  COMMAND",
    "    tokenize  Scan a Lox file and print its tokens",
    "",
    "options:",
    "  -h, --help  show this help message and exit"]

/-- How to call the command. -/
def tokenizeUsage : Text := lines [
  "usage: loxscan tokenize [-h] [-o OUTPUT] [--format \x7btext,json\x7d] [--no-eof]",
  "                        [--config FILE] [--debug]",
  "                        input"]

/-- What the command does. -/
def tokenizeHelp : Text :=
  tokenizeUsage ++ lines [
    "",
    "positional arguments:",
    "  input                 Input .lox file",
    "",
    "options:",
    "  -h, --help            show this help message and exit",
    "  -o OUTPUT, --output OUTPUT",
    "                        Output file (default: stdout)",
    "  --format \x7btext,json\x7d  Token output format (default: text)",
    "  --no-eof              Omit the trailing EOF token from the output",
    "  --config FILE         Config file (default: auto-discover loxscan.toml)",
    "  --debug               Dump the token table to stderr"]

end Command
end LoxLexer
