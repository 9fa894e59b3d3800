import LoxLexer.Character
import LoxLexer.Token
import LoxLexer.LexicalError
import LoxLexer.Number.Numeral

/-!
# Lexemes

A source is cut into lexemes: blanks, line feeds, comments, tokens and defective pieces.  Nothing
is left out, so the texts of the lexemes put together are the source.

* `Shape` — what a lexeme is.
* `reach` — the shape of the lexeme at the front of a text and how far it reaches.
* `lexemes` — the lexemes of a source; `lexemes_flatMap_text` says that they make up the source.
* `Lexeme.kind?`, `Lexeme.literal?`, `Lexeme.defect?` — what a lexeme counts as.
-/

namespace LoxLexer

/-- What a lexeme is. -/
inductive Shape
  | blank
  | lineFeed
  | comment
  | symbol (kind : TokenKind)
  | string
  | number
  | word
  /-- a character that no lexeme starts with -/
  | stray
  /-- a string without closing quote, up to and including the end of its line -/
  | unclosed
deriving DecidableEq, Repr

/-- The kind of a character that is a token by itself. -/
def single? : Char → Option TokenKind
  | '(' => some .leftParen
  | ')' => some .rightParen
  | '{' => some .leftBrace
  | '}' => some .rightBrace
  | ',' => some .comma
  | '.' => some .dot
  | '-' => some .minus
  | '+' => some .plus
  | ';' => some .semicolon
  | '*' => some .star
  | _ => none

/-- The kinds of an operator character alone and with an equals sign behind it. -/
def operator? : Char → Option (TokenKind × TokenKind)
  | '!' => some (.bang, .bangEqual)
  | '=' => some (.equal, .equalEqual)
  | '<' => some (.less, .lessEqual)
  | '>' => some (.greater, .greaterEqual)
  | _ => none

/-- How many characters of `rest` go on the number whose first digit stands before it: digits,
and a point if digits follow it. -/
def numberReach (rest : Text) : Nat :=
  let whole := (rest.takeWhile isDigit).length
  match rest.drop whole with
  | '.' :: more =>
    let fraction := (more.takeWhile isDigit).length
    if fraction = 0 then whole else whole + 1 + fraction
  | _ => whole

/-- The shape of the string whose opening quote stands before `rest`, and how many characters of
`rest` belong to it. -/
def stringReach (rest : Text) : Shape × Nat :=
  let body := (rest.takeWhile isStringChar).length
  match rest.drop body with
  | '"' :: _ => (.string, body + 1)
  | _ :: _ => (.unclosed, body + 1)
  | [] => (.unclosed, body)

/-- The shape of the lexeme that starts with `c` before `rest`, and how many characters of `rest`
belong to it. -/
def reach (c : Char) (rest : Text) : Shape × Nat :=
  match single? c, operator? c with
  | some kind, _ => (.symbol kind, 0)
  | none, some (alone, withEqual) =>
    if rest.head? = some '=' then (.symbol withEqual, 1) else (.symbol alone, 0)
  | none, none =>
    if c = '/' then
      if rest.head? = some '/' then (.comment, (rest.takeWhile isCommentChar).length)
      else (.symbol .slash, 0)
    else if isBlank c then (.blank, 0)
    else if c = '\n' then (.lineFeed, 0)
    else if c = '"' then stringReach rest
    else if isDigit c then (.number, numberReach rest)
    else if isWordStart c then (.word, (rest.takeWhile isWordChar).length)
    else (.stray, 0)

/-- A piece of source and what it is. -/
structure Lexeme where
  shape : Shape
  text : Text
deriving DecidableEq

/-- The lexemes of a source, in order. -/
def lexemes : Text → List Lexeme
  | [] => []
  | c :: rest =>
    let found := reach c rest
    ⟨found.1, c :: rest.take found.2⟩ :: lexemes (rest.drop found.2)
termination_by source => source.length
decreasing_by simp only [List.length_cons, List.length_drop]; omega

@[simp] theorem lexemes_nil : lexemes [] = [] := by rw [lexemes]

theorem lexemes_cons (c : Char) (rest : Text) :
    lexemes (c :: rest) =
      ⟨(reach c rest).1, c :: rest.take (reach c rest).2⟩ ::
        lexemes (rest.drop (reach c rest).2) := by
  rw [lexemes]

/-- The texts of the lexemes make up the source. -/
theorem lexemes_flatMap_text (source : Text) : (lexemes source).flatMap Lexeme.text = source := by
  fun_induction lexemes source with
  | case1 => rfl
  | case2 c rest found ih => simp [ih]

namespace Lexeme

/-- The kind of token that a lexeme is, if it is one. -/
def kind? (lexeme : Lexeme) : Option TokenKind :=
  match lexeme.shape with
  | .symbol kind => some kind
  | .string => some .string
  | .number => some .number
  | .word => some (TokenKind.ofWord lexeme.text)
  | _ => none

/-- The value of a lexeme, if it is a literal: the number that it denotes, or the text between
the quotes. -/
def literal? (lexeme : Lexeme) : Option Literal :=
  match lexeme.shape with
  | .string => some (.text (lexeme.text.drop 1).dropLast)
  | .number => (Numeral.read? lexeme.text).map .number
  | _ => none

/-- What is wrong with a lexeme, if anything is. -/
def defect? (lexeme : Lexeme) : Option Defect :=
  match lexeme.shape, lexeme.text with
  | .stray, c :: _ => some (.unexpected c)
  | .unclosed, _ => some .unterminated
  | _, _ => none

end Lexeme
end LoxLexer
