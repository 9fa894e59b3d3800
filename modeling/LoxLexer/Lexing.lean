import LoxLexer.Lexeme

/-!
# Lexical analysis

The tokens and the errors of a source, read off its lexemes.  Both carry their lines, which are
counted from one by the line feeds before them; errors carry offsets as well.

* `tokensOf`, `errorsOf` — tokens and errors of lexemes that start at a given place.
* `analyse` — the tokens of a source, closed by the end of file, and its errors.
-/

namespace LoxLexer

/-- The token that a lexeme on `line` is, if it is one. -/
def Lexeme.token? (line : Int) (lexeme : Lexeme) : Option Token :=
  lexeme.kind?.map fun kind => ⟨kind, lexeme.text, lexeme.literal?, line⟩

/-- The tokens of lexemes of which the first starts on `line`, and then the end of file. -/
def tokensOf (line : Int) : List Lexeme → List Token
  | [] => [Token.endOfFile line]
  | lexeme :: rest =>
    (lexeme.token? line).toList ++ tokensOf (line + lexeme.text.lineFeeds) rest

/-- The errors of lexemes of which the first starts on `line` at `offset`. -/
def errorsOf (line : Int) (offset : Nat) : List Lexeme → List LexicalError
  | [] => []
  | lexeme :: rest =>
    (lexeme.defect?.map (·.located line offset)).toList ++
      errorsOf (line + lexeme.text.lineFeeds) (offset + lexeme.text.length) rest

/-- What a source consists of, and what is wrong with it. -/
structure Analysis where
  tokens : List Token
  report : Report
deriving DecidableEq

/-- The analysis of a source. -/
def analyse (source : Text) : Analysis where
  tokens := tokensOf 1 (lexemes source)
  report := ⟨errorsOf 1 0 (lexemes source)⟩

/-- The tokens of a source. -/
def tokens (source : Text) : List Token := (analyse source).tokens

/-- The tokens of a source, and whether it has an error. -/
def tokensAndVerdict (source : Text) : List Token × Bool :=
  ((analyse source).tokens, (analyse source).report.hadError)

/-- The analyses of several sources whose errors go to one report: for each source its tokens,
and the report as it stands after the source. -/
def analyseAll (report : Report) : List Text → List Analysis
  | [] => []
  | source :: rest =>
    let own := analyse source
    let total := report.addAll own.report.errors
    ⟨own.tokens, total⟩ :: analyseAll total rest

end LoxLexer
