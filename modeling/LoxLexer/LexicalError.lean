import LoxLexer.Text.Basic

/-!
# Lexical errors

* `LexicalError` — one error: its kind, its message, and where it stands.
* `Defect` — what is wrong with a piece of source; it determines kind and message.
* `Report` — the errors that were found, in the order of finding.
-/

namespace LoxLexer

namespace LexicalError

/-- The kinds of lexical errors. -/
inductive Kind
  | unexpectedCharacter
  | unterminatedString
deriving DecidableEq, Repr

/-- All kinds, in their order of listing. -/
def Kind.all : List Kind := [.unexpectedCharacter, .unterminatedString]

/-- The name that a kind has in every output. -/
def Kind.name : Kind → Text
  | unexpectedCharacter => "UNEXPECTED_CHARACTER".toList
  | unterminatedString => "UNTERMINATED_STRING".toList

/-- The kind of a name. -/
def Kind.ofName? (text : Text) : Option Kind := Kind.all.find? (·.name = text)

/-- The place of a kind in the listing, from one up. -/
def Kind.ordinal (kind : Kind) : Nat := Kind.all.idxOf kind + 1

end LexicalError

/-- A lexical error.  Its offset is the position of the offending character, or of the opening
quote of an unterminated string; it is `-1` if the position is not known. -/
structure LexicalError where
  kind : LexicalError.Kind
  message : Text
  line : Int
  offset : Int
deriving DecidableEq

/-- The line that announces an error. -/
def LexicalError.announcement (error : LexicalError) : Text :=
  "[line ".toList ++ Text.ofInt error.line ++ "] Error: ".toList ++ error.message

/-- What can be wrong with a piece of source. -/
inductive Defect
  | unexpected (c : Char)
  | unterminated
deriving DecidableEq

namespace Defect

/-- The kind of error that a defect is. -/
def kind : Defect → LexicalError.Kind
  | unexpected _ => .unexpectedCharacter
  | unterminated => .unterminatedString

/-- The message of a defect. -/
def message : Defect → Text
  | unexpected c => "Unexpected character: ".toList ++ [c]
  | unterminated => "Unterminated string".toList

/-- The error that a defect is at its place. -/
def located (defect : Defect) (line : Int) (offset : Nat) : LexicalError :=
  ⟨defect.kind, defect.message, line, offset⟩

end Defect

/-- The errors that were found, in the order of finding. -/
structure Report where
  errors : List LexicalError := []
deriving DecidableEq

namespace Report

/-- A report with one more error. -/
def add (report : Report) (error : LexicalError) : Report := ⟨report.errors ++ [error]⟩

/-- A report with more errors. -/
def addAll (report : Report) (errors : List LexicalError) : Report := ⟨report.errors ++ errors⟩

/-- The error that a message alone makes: of the first kind, at no known position. -/
def unplaced (line : Int) (message : Text) : LexicalError :=
  ⟨.unexpectedCharacter, message, line, -1⟩

/-- Whether any error was found. -/
def hadError (report : Report) : Bool := !report.errors.isEmpty

/-- How many errors were found. -/
def size (report : Report) : Nat := report.errors.length

/-- The lines that announce the errors, in the order of finding. -/
def messages (report : Report) : List Text := report.errors.map LexicalError.announcement

end Report
end LoxLexer
