import LoxLexer.Listing
import LoxLexer.Proofs.Lexing.Spelling
import LoxLexer.Proofs.Text.Lines

/-!
# Listings in plain text

A listing of the tokens of a source has a line for each of them.  Nothing in a line is escaped, yet
what a token is can be read off its line: the name of the kind holds no blank, and the kind tells
how the lexeme behind it ends.

* `Content` — what a line tells of a token.
* `Content.ofLine`, `Content.ofLine_spelt` — a line is read, and gives the content of its token.
* `Content.ofListing_list` — and so the contents are read off a listing.
* `list_text_tokens` — the lines of a listing, and when two listings are equal.
-/

namespace LoxLexer

/-- What a line tells of a token: everything but the line that it stands on in the source. -/
structure Content where
  kind : TokenKind
  lexeme : Text
  literal : Option Literal
deriving DecidableEq

/-- The line that tells it. -/
def Content.toText (content : Content) : Text :=
  Token.toText ⟨content.kind, content.lexeme, content.literal, 0⟩

/-- What a line tells of a token. -/
def Token.content (token : Token) : Content := ⟨token.kind, token.lexeme, token.literal⟩

/-! ### Lines -/

theorem Binary64.lineFeed_notMem_toText (value : Binary64) : '\n' ∉ value.toText := by
  cases value with
  | finite negative rank =>
      obtain ⟨n, htext, -⟩ := DecimalNotation.exists_of_finite negative rank
      intro h
      rw [Binary64.toText, ← htext] at h
      exact absurd (DecimalNotation.isNumeralChar_of_mem_text h) (by decide)
  | infinite negative => cases negative <;> decide
  | nan => decide

theorem TokenKind.isFieldChar_of_mem_name (kind : TokenKind) :
    ∀ c ∈ kind.name, isFieldChar c = true := by
  cases kind <;> exact Text.forall_mem_of_all (by decide)

theorem TokenKind.ofName?_name (kind : TokenKind) : ofName? kind.name = some kind := by
  cases kind <;> decide

namespace Token

theorem lineFeed_notMem_toText {token : Token} (hlexeme : '\n' ∉ token.lexeme)
    (hliteral : ∀ value, token.literal = some (.text value) → '\n' ∉ value) :
    '\n' ∉ token.toText := by
  have hname : '\n' ∉ token.kind.name :=
    lineFeed_notMem token.kind.isFieldChar_of_mem_name (by decide)
  have hshown : '\n' ∉ (token.literal.map Literal.toText).getD "null".toList := by
    cases hvalue : token.literal with
    | none => decide
    | some literal =>
        cases literal with
        | number value => exact value.lineFeed_notMem_toText
        | text value => exact hliteral value hvalue
  simpa [toText, hname, hlexeme] using hshown

/-- A token of a source is listed on one line. -/
theorem Spelt.lineFeed_notMem_toText {token : Token} (h : token.Spelt) : '\n' ∉ token.toText := by
  cases h with
  | string line hbody =>
      have hfeed := lineFeed_notMem hbody (by decide)
      exact Token.lineFeed_notMem_toText (by simpa using hfeed) (by simpa using hfeed)
  | number line hne hwhole hdecimals =>
      refine Token.lineFeed_notMem_toText ?_ (by simp)
      exact lineFeed_notMem (isFieldChar_of_mem_number hwhole hdecimals) (by decide)
  | bare line hkind htext =>
      exact Token.lineFeed_notMem_toText (lineFeed_notMem htext (by decide)) (by simp)

theorem lineFeed_notMem_toText_endOfFile (line : Int) : '\n' ∉ (endOfFile line).toText :=
  Token.lineFeed_notMem_toText List.not_mem_nil (by simp [endOfFile])

end Token

/-! ### Reading a line -/

namespace Content

/-- The content of a token whose kind is known, read from the lexeme on.  Where the lexeme of a
string ends is known from its quotes, where another ends from the blank behind it. -/
def ofFields (kind : TokenKind) (rest : Text) : Content :=
  if kind = .string then
    let body := (rest.drop 1).takeWhile isStringChar
    ⟨kind, '"' :: (body ++ ['"']), some (.text body)⟩
  else
    let lexeme := rest.takeWhile isFieldChar
    ⟨kind, lexeme, if kind = .number then (Numeral.read? lexeme).map .number else none⟩

/-- The content of a token, read from its line. -/
def ofLine (line : Text) : Content :=
  ofFields ((TokenKind.ofName? (line.takeWhile isFieldChar)).getD .eof)
    ((line.dropWhile isFieldChar).drop 1)

/-- The contents of the tokens of a listing. -/
def ofListing (text : Text) : List Content := (Text.split '\n' text).dropLast.map ofLine

theorem ofLine_toText (token : Token) :
    ofLine token.toText = ofFields token.kind
      (token.lexeme ++ ' ' :: (token.literal.map Literal.toText).getD "null".toList) := by
  have hstop : isFieldChar ' ' = false := by decide
  have hname := token.kind.isFieldChar_of_mem_name
  have htext : token.toText = token.kind.name ++
      ' ' :: (token.lexeme ++ ' ' :: (token.literal.map Literal.toText).getD "null".toList) := by
    simp [Token.toText]
  rw [htext, ofLine, Text.takeWhile_run hname (Text.stops_cons hstop _),
    Text.dropWhile_run hname (Text.stops_cons hstop _), TokenKind.ofName?_name]
  rfl

/-- The lexeme of a token that is not a string is what stands before the next blank. -/
theorem ofFields_of_isFieldChar {kind : TokenKind} {lexeme : Text} (hkind : kind ≠ .string)
    (hlexeme : ∀ c ∈ lexeme, isFieldChar c = true) (rest : Text) :
    ofFields kind (lexeme ++ ' ' :: rest) =
      ⟨kind, lexeme, if kind = .number then (Numeral.read? lexeme).map .number else none⟩ := by
  have hstop : isFieldChar ' ' = false := by decide
  rw [ofFields, if_neg hkind, Text.takeWhile_run hlexeme (Text.stops_cons hstop rest)]

/-- Reading the line of a token of a source gives its content. -/
theorem ofLine_spelt {token : Token} (h : token.Spelt) : ofLine token.toText = token.content := by
  rw [ofLine_toText]
  cases h with
  | @string body line hbody =>
      -- the body holds no quote, so the next quote behind the opening one closes it
      have hstop : isStringChar '"' = false := by decide
      have hrun := Text.takeWhile_run hbody (Text.stops_cons hstop (' ' :: body))
      simp [ofFields, hrun, Token.content, Literal.toText]
  | number line hne hwhole hdecimals =>
      have hfield := isFieldChar_of_mem_number hwhole hdecimals
      rw [ofFields_of_isFieldChar TokenKind.noConfusion hfield,
        Numeral.read?_spelt hne hwhole hdecimals]
      rfl
  | bare line hkind htext =>
      obtain ⟨hstring, hnumber, -⟩ := TokenKind.ne_of_isBare hkind
      rw [ofFields_of_isFieldChar hstring htext, if_neg hnumber]
      rfl

example : ofLine "STRING \"a null\" a null".toList =
    ⟨.string, "\"a null\"".toList, some (.text "a null".toList)⟩ := by decide

theorem ofLine_endOfFile (line : Int) :
    ofLine (Token.endOfFile line).toText = (Token.endOfFile line).content := by
  rw [ofLine_toText]
  exact ofFields_of_isFieldChar TokenKind.noConfusion (List.forall_mem_nil _) _

end Content

/-! ### Listings -/

/-- The text of a listing with the end of file is cut into the lines of the tokens. -/
theorem split_list {found : List Token} (h : ∀ token ∈ found, '\n' ∉ token.toText) :
    Text.split '\n' (Format.text.list true found) = found.map Token.toText ++ [[]] := by
  show Text.split '\n' (found.flatMap fun token => token.toText ++ ['\n']) = _
  induction found with
  | nil => rfl
  | cons token rest ih =>
      obtain ⟨htoken, hrest⟩ := List.forall_mem_cons.mp h
      rw [List.flatMap_cons, List.append_assoc, List.singleton_append, Text.split_line htoken,
        ih hrest]
      rfl

theorem lineFeed_notMem_toText_of_mem_tokens {source : Text} {token : Token}
    (h : token ∈ tokens source) : '\n' ∉ token.toText := by
  obtain hspelt | ⟨line, rfl⟩ := spelt_or_endOfFile h
  · exact hspelt.lineFeed_notMem_toText
  · exact Token.lineFeed_notMem_toText_endOfFile line

/-- What the tokens of a source are, up to their lines, is read off their listing. -/
theorem Content.ofListing_list (source : Text) :
    Content.ofListing (Format.text.list true (tokens source)) =
      (tokens source).map Token.content := by
  have hread : ∀ token ∈ tokens source, ofLine token.toText = token.content := by
    intro token h
    obtain hspelt | ⟨line, rfl⟩ := spelt_or_endOfFile h
    · exact ofLine_spelt hspelt
    · exact ofLine_endOfFile line
  rw [ofListing, split_list fun _ => lineFeed_notMem_toText_of_mem_tokens, List.dropLast_concat,
    List.map_map]
  exact List.map_congr_left hread

/-- A listing depends on the contents of the tokens only. -/
theorem list_eq_of_map_content_eq {found other : List Token}
    (h : found.map Token.content = other.map Token.content) :
    Format.text.list true found = Format.text.list true other := by
  have hlist (all : List Token) : Format.text.list true all =
      (all.map Token.content).flatMap fun content => content.toText ++ ['\n'] := by
    rw [List.flatMap_map]
    rfl
  rw [hlist, hlist, h]

/-- The listing of the tokens of a source has a line for each of them, tells them apart by all but
their lines, and without the end of file lacks the last line only. -/
theorem list_text_tokens (source : Text) :
    Text.split '\n' (Format.text.list true (tokens source)) =
        (tokens source).map Token.toText ++ [[]] ∧
      (∀ other, Format.text.list true (tokens source) = Format.text.list true (tokens other) ↔
        (tokens source).map Token.content = (tokens other).map Token.content) ∧
      Format.text.list true (tokens source) =
        Format.text.list false (tokens source) ++ "EOF  null\n".toList := by
  refine ⟨split_list fun _ => lineFeed_notMem_toText_of_mem_tokens, fun other => ⟨?_, ?_⟩, ?_⟩
  · -- equal listings are read as equal contents
    intro h
    rw [← Content.ofListing_list, h, Content.ofListing_list]
  · exact list_eq_of_map_content_eq
  · obtain ⟨found, line, htokens, hspelt⟩ := exists_tokens_eq source
    have hshown : shown false (tokens source) = found := by
      rw [htokens]
      simpa [shown, Token.endOfFile] using fun token htoken => (hspelt token htoken).kind_ne_eof
    have hline : (Token.endOfFile line).toText ++ ['\n'] = "EOF  null\n".toList := rfl
    rw [Format.list, Format.list, hshown, shown, if_pos rfl, htokens, List.flatMap_append,
      List.flatMap_singleton, hline]

end LoxLexer
