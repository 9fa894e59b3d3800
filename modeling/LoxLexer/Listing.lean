import LoxLexer.Json
import LoxLexer.Token

/-!
# Listings of tokens

* `Format` — the two formats of a listing.
* `Format.named` — the format that a name asks for.
* `Format.list` — a listing: a line for each token, or a JSON array with an object for each.
-/

namespace LoxLexer

/-- The formats of a listing. -/
inductive Format
  | text
  | json
deriving DecidableEq, Repr

namespace Format

/-- All formats. -/
def all : List Format := [text, json]

/-- The name of a format. -/
def name : Format → Text
  | text => "text".toList
  | json => "json".toList

/-- The format of a name. -/
def ofName? (name : Text) : Option Format := all.find? (·.name = name)

/-- The format that a name asks for: the one of that name, or plain text if there is none. -/
def named (name : Text) : Format := (ofName? name).getD .text

end Format

/-- The JSON value of a literal, `null` standing for none. -/
def literalJson : Option Literal → Json
  | none => .null
  | some (.number value) => .number value
  | some (.text value) => .string value

/-- The JSON object of a token. -/
def Token.toJson (token : Token) : Json :=
  .object [("type".toList, .string token.kind.name), ("lexeme".toList, .string token.lexeme),
    ("literal".toList, literalJson token.literal), ("line".toList, .integer token.line)]

/-- The tokens that a listing shows: all, or all but the ends of file. -/
def shown (showEof : Bool) (tokens : List Token) : List Token :=
  if showEof then tokens else tokens.filter (·.kind ≠ .eof)

/-- A listing of tokens. -/
def Format.list (format : Format) (showEof : Bool) (tokens : List Token) : Text :=
  match format with
  | .text => (shown showEof tokens).flatMap fun token => token.toText ++ ['\n']
  | .json => (Json.array ((shown showEof tokens).map Token.toJson)).write 0 ++ ['\n']

end LoxLexer
