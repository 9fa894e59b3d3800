import LoxLexer.Editor.Position
import LoxLexer.LexicalError

/-!
# Diagnostics for editors

An editor shows an error as a range of its document, with columns in code points.

* `columnAt` — the column of an offset in its line.
* `Diagnostic.ofError` — the diagnostic of an error: the character at its offset.
-/

namespace LoxLexer
namespace Editor

/-- How grave a diagnostic is. -/
inductive Severity
  | error
  | warning
  | information
  | hint
deriving DecidableEq, Repr

/-- The number by which editors know a severity. -/
def Severity.code : Severity → Nat
  | error => 1
  | warning => 2
  | information => 3
  | hint => 4

/-- A remark on a range of a document. -/
structure Diagnostic where
  range : Range
  message : Text
  severity : Severity
  /-- who makes the remark -/
  origin : Text
deriving DecidableEq

/-- How many characters of the line that position `offset` lies on stand before it; beyond the
end of the source the last line goes on. -/
def columnAt (source : Text) (offset : Nat) : Nat :=
  (offset - source.length) + ((source.take offset).reverse.takeWhile (· ≠ '\n')).length

/-- The column of an offset; an unknown position, below zero, counts as column zero. -/
def column (source : Text) : Int → Int
  | .ofNat offset => columnAt source offset
  | .negSucc _ => 0

/-- The range of the one character at a line and a column. -/
def Range.ofCharacter (line character : Int) : Except PositionError Range := do
  let start ← Position.ofInts line character
  let stop ← Position.ofInts line (character + 1)
  return ⟨start, stop⟩

/-- The diagnostic of an error in a source; none if the error lies at no position. -/
def Diagnostic.ofError (source : Text) (error : LexicalError) :
    Except PositionError Diagnostic := do
  let range ← Range.ofCharacter (error.line - 1) (column source error.offset)
  return { range, message := error.message, severity := .error, origin := "loxscan".toList }

end Editor
end LoxLexer
