import LoxLexer.LexicalError
import LoxLexer.Text.Quoted
import LoxLexer.Token

/-!
# Tables of tokens and errors

The table is made for reading: a heading with a count, then a line for each token with its line
number, its kind, its quoted text and the quoted value, in columns; below it, if there are any,
the errors in the same manner.
-/

namespace LoxLexer
namespace Table

/-- The width of the column of kinds. -/
def kindWidth (tokens : List Token) : Nat :=
  (tokens.map fun token => token.kind.name.length).foldr max 0

/-- A line number in its column. -/
def lineColumn (line : Int) : Text := "  ".toList ++ Text.padLeft 4 (Text.ofInt line) ++ "  ".toList

/-- The value of a literal in its column. -/
def literalColumn : Option Literal → Text
  | none => []
  | some (.number value) => "  = ".toList ++ value.toText
  | some (.text value) => "  = ".toList ++ Text.quoted value

/-- The line of a token. -/
def tokenRow (width : Nat) (token : Token) : Text :=
  lineColumn token.line ++ Text.padRight width token.kind.name ++ "  ".toList ++
    Text.quoted token.lexeme ++ literalColumn token.literal ++ ['\n']

/-- The line of an error. -/
def errorRow (error : LexicalError) : Text :=
  lineColumn error.line ++ error.kind.name ++ "  offset=".toList ++ Text.ofInt error.offset ++
    "  ".toList ++ error.message ++ ['\n']

/-- A heading with a count. -/
def heading (title : Text) (count : Nat) : Text :=
  title ++ " (".toList ++ Text.ofNat count ++ ")\n".toList

/-- The section of errors, left out if there are none. -/
def errorSection (errors : List LexicalError) : Text :=
  if errors = [] then []
  else heading "Errors".toList errors.length ++ errors.flatMap errorRow

/-- The table of tokens and errors. -/
def render (tokens : List Token) (errors : List LexicalError) : Text :=
  heading "Tokens".toList tokens.length ++ tokens.flatMap (tokenRow (kindWidth tokens)) ++
    errorSection errors

end Table
end LoxLexer
