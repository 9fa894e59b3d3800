import LoxLexer.Number.Decimal

/-!
# Tokens

* `TokenKind` — the kinds of tokens, in their order of listing.
* `TokenKind.ofWord` — the kind of a word: a reserved one has its own kind.
* `Token` — a kind, the source text, the value of a literal, and the line where the token ends.
* `Token.toText` — a token on one line: its kind, its text and its value.
-/

namespace LoxLexer

/-- The kinds of tokens. -/
inductive TokenKind
  -- punctuation of a single character
  | leftParen | rightParen | leftBrace | rightBrace | comma | dot | minus | plus | semicolon
  | slash | star
  -- operators of one or two characters
  | bang | bangEqual | equal | equalEqual | greater | greaterEqual | less | lessEqual
  -- literals and names
  | string | number | identifier
  -- reserved words
  | keyAnd | keyClass | keyElse | keyFalse | keyFor | keyFun | keyIf | keyNil
  | keyOr | keyPrint | keyReturn | keySuper | keyThis | keyTrue | keyVar | keyWhile
  | eof
deriving DecidableEq, Repr

namespace TokenKind

/-- All kinds, in their order of listing. -/
def all : List TokenKind :=
  [leftParen, rightParen, leftBrace, rightBrace, comma, dot, minus, plus, semicolon, slash, star,
    bang, bangEqual, equal, equalEqual, greater, greaterEqual, less, lessEqual, string, number,
    identifier, keyAnd, keyClass, keyElse, keyFalse, keyFor, keyFun, keyIf,
    keyNil, keyOr, keyPrint, keyReturn, keySuper, keyThis, keyTrue, keyVar, keyWhile, eof]

/-- The name that a kind has in every output. -/
def name : TokenKind → Text
  | leftParen => "LEFT_PAREN".toList
  | rightParen => "RIGHT_PAREN".toList
  | leftBrace => "LEFT_BRACE".toList
  | rightBrace => "RIGHT_BRACE".toList
  | comma => "COMMA".toList
  | dot => "DOT".toList
  | minus => "MINUS".toList
  | plus => "PLUS".toList
  | semicolon => "SEMICOLON".toList
  | slash => "SLASH".toList
  | star => "STAR".toList
  | bang => "BANG".toList
  | bangEqual => "BANG_EQUAL".toList
  | equal => "EQUAL".toList
  | equalEqual => "EQUAL_EQUAL".toList
  | greater => "GREATER".toList
  | greaterEqual => "GREATER_EQUAL".toList
  | less => "LESS".toList
  | lessEqual => "LESS_EQUAL".toList
  | string => "STRING".toList
  | number => "NUMBER".toList
  | identifier => "IDENTIFIER".toList
  | keyAnd => "AND".toList
  | keyClass => "CLASS".toList
  | keyElse => "ELSE".toList
  | keyFalse => "FALSE".toList
  | keyFor => "FOR".toList
  | keyFun => "FUN".toList
  | keyIf => "IF".toList
  | keyNil => "NIL".toList
  | keyOr => "OR".toList
  | keyPrint => "PRINT".toList
  | keyReturn => "RETURN".toList
  | keySuper => "SUPER".toList
  | keyThis => "THIS".toList
  | keyTrue => "TRUE".toList
  | keyVar => "VAR".toList
  | keyWhile => "WHILE".toList
  | eof => "EOF".toList

/-- The kind of a name. -/
def ofName? (text : Text) : Option TokenKind := all.find? (·.name = text)

/-- Every kind is listed. -/
theorem mem_all (kind : TokenKind) : kind ∈ all := by cases kind <;> decide

/-- The place of a kind in the listing, from one up. -/
def ordinal (kind : TokenKind) : Nat := all.idxOf kind + 1

/-- The reserved words and their kinds. -/
def reserved : List (Text × TokenKind) :=
  [("and".toList, keyAnd), ("class".toList, keyClass), ("else".toList, keyElse),
    ("false".toList, keyFalse), ("for".toList, keyFor), ("fun".toList, keyFun),
    ("if".toList, keyIf), ("nil".toList, keyNil), ("or".toList, keyOr),
    ("print".toList, keyPrint), ("return".toList, keyReturn), ("super".toList, keySuper),
    ("this".toList, keyThis), ("true".toList, keyTrue), ("var".toList, keyVar),
    ("while".toList, keyWhile)]

/-- The kind of a word: its own if the whole word is reserved. -/
def ofWord (word : Text) : TokenKind := (reserved.lookup word).getD identifier

end TokenKind

/-- The value of a literal. -/
inductive Literal
  | number (value : Binary64)
  | text (value : Text)
deriving DecidableEq

/-- The value of a literal as it is listed. -/
def Literal.toText : Literal → Text
  | number value => value.toText
  | text value => value

/-- Equality of values; a nan equals nothing and the two zeros are equal. -/
def Literal.equal : Literal → Literal → Bool
  | number a, number b => a.equal b
  | text a, text b => a = b
  | _, _ => false

/-- A lexeme that counts, with the value of a literal and the line it stands on. -/
structure Token where
  kind : TokenKind
  lexeme : Text
  literal : Option Literal
  line : Int
deriving DecidableEq

namespace Token

/-- The token that stands at the end of every source. -/
def endOfFile (line : Int) : Token := ⟨.eof, [], none, line⟩

/-- A token on one line: its kind, its text and its value, `null` standing for no value. -/
def toText (token : Token) : Text :=
  token.kind.name ++ ' ' :: token.lexeme ++
    ' ' :: (token.literal.map Literal.toText).getD "null".toList

/-- Equality of tokens, field by field, literals by value. -/
def equal (a b : Token) : Bool :=
  a.kind = b.kind && a.lexeme = b.lexeme && a.line = b.line &&
    match a.literal, b.literal with
    | none, none => true
    | some x, some y => x.equal y
    | _, _ => false

end Token
end LoxLexer
