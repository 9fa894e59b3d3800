import LoxLexer.Proofs.Lexing.Shift
import LoxLexer.Proofs.Number.Notation
import LoxLexer.Proofs.Number.PlainNumeral

/-!
# Spellings of tokens

What a source can hold as a token is known from the kind: a string stands in quotes, a number is
digits with perhaps a fraction, and everything else is spelt without blanks and line feeds.

* `Numeral.read?_spelt` — the value of a number as it is spelt.
* `Token.Spelt` — the tokens that stand before the end of file, by the way they are spelt.
* `exists_tokens_eq`, `spelt_or_endOfFile` — the tokens of a source are spelt in these ways.
-/

namespace LoxLexer

/-- A character that neither ends a word of a line nor the line. -/
def isFieldChar (c : Char) : Bool := c ≠ ' ' && c ≠ '\n'

theorem isFieldChar_of_property {property : Char → Bool} {c : Char} (hc : property c = true)
    (hblank : property ' ' = false) (hfeed : property '\n' = false) : isFieldChar c = true := by
  have hne {d : Char} (hd : property d = false) : c ≠ d := by
    rintro rfl
    rw [hc] at hd
    contradiction
  simp [isFieldChar, hne hblank, hne hfeed]

/-! ### Numbers -/

/-- The value that a number has by its digits before and behind the point. -/
def Numeral.spelt (whole decimals : Text) : Binary64 :=
  Binary64.ofScientific false (digitsValue (whole ++ decimals)) (-(decimals.length : Int))

/-- Digits, and perhaps a point and more of them, are read as the number that they spell. -/
theorem Numeral.read?_spelt {whole decimals : Text} (hne : whole ≠ [])
    (hwhole : ∀ c ∈ whole, isDigit c = true) (hdecimals : ∀ c ∈ decimals, isDigit c = true) :
    read? (whole ++ DecimalNotation.fractionText decimals) = some (spelt whole decimals) := by
  obtain ⟨c, digits, rfl⟩ := List.exists_cons_of_ne_nil hne
  obtain ⟨hc, hdigits⟩ := List.forall_mem_cons.mp hwhole
  cases decimals with
  | nil => simpa [DecimalNotation.fractionText, spelt] using read?_integer hc hdigits
  | cons d decimals =>
      obtain ⟨hd, hmore⟩ := List.forall_mem_cons.mp hdecimals
      simpa [DecimalNotation.fractionText, spelt] using read?_fraction hc hdigits hd hmore

theorem isFieldChar_of_mem_number {whole decimals : Text} (hwhole : ∀ c ∈ whole, isDigit c = true)
    (hdecimals : ∀ c ∈ decimals, isDigit c = true) :
    ∀ c ∈ whole ++ DecimalNotation.fractionText decimals, isFieldChar c = true := by
  have hdigit {c : Char} (hc : isDigit c = true) : isFieldChar c = true :=
    isFieldChar_of_property hc (by decide) (by decide)
  intro c hc
  rcases List.mem_append.mp hc with hc | hc
  · exact hdigit (hwhole c hc)
  · rcases DecimalNotation.mem_fractionText hc with rfl | hc
    · decide
    · exact hdigit (hdecimals c hc)

/-! ### Kinds -/

/-- The kinds of tokens that are neither literals nor the end of file. -/
def TokenKind.isBare (kind : TokenKind) : Bool :=
  kind ≠ .string && kind ≠ .number && kind ≠ .eof

theorem TokenKind.ne_of_isBare {kind : TokenKind} (h : kind.isBare = true) :
    kind ≠ .string ∧ kind ≠ .number ∧ kind ≠ .eof := by
  simpa [isBare, and_assoc] using h

theorem isBare_of_single? {c : Char} {kind : TokenKind} (h : single? c = some kind) :
    kind.isBare = true := by
  unfold single? at h
  split at h
  all_goals first | contradiction | (cases h; rfl)

theorem isBare_of_operator? {c : Char} {alone withEqual : TokenKind}
    (h : operator? c = some (alone, withEqual)) :
    alone.isBare = true ∧ withEqual.isBare = true := by
  unfold operator? at h
  split at h
  all_goals first | contradiction | (cases h; exact ⟨rfl, rfl⟩)

theorem isBare_ofWord (word : Text) : (TokenKind.ofWord word).isBare = true := by
  unfold TokenKind.ofWord
  cases hlookup : TokenKind.reserved.lookup word with
  | none => rfl
  | some kind =>
      obtain ⟨before, after, hreserved, -⟩ := List.lookup_eq_some_iff.mp hlookup
      have hall : ∀ entry ∈ TokenKind.reserved, entry.2.isBare = true := by decide
      exact hall (word, kind) (hreserved ▸ List.mem_append_right before List.mem_cons_self)

theorem isFieldChar_of_operator? {c : Char} {kinds : TokenKind × TokenKind}
    (h : operator? c = some kinds) : isFieldChar c = true := by
  have hall : ∀ d ∈ ['!', '=', '<', '>'], isFieldChar d = true := Text.forall_mem_of_all (by decide)
  exact hall c (mem_of_operator? h)

/-! ### Tokens -/

/-- The tokens that stand before the end of file, by the way they are spelt. -/
inductive Token.Spelt : Token → Prop
  | string {body : Text} (line : Int) (hbody : ∀ c ∈ body, isStringChar c = true) :
      Spelt ⟨.string, '"' :: (body ++ ['"']), some (.text body), line⟩
  | number {whole decimals : Text} (line : Int) (hne : whole ≠ [])
      (hwhole : ∀ c ∈ whole, isDigit c = true) (hdecimals : ∀ c ∈ decimals, isDigit c = true) :
      Spelt ⟨.number, whole ++ DecimalNotation.fractionText decimals,
        some (.number (Numeral.spelt whole decimals)), line⟩
  | bare {kind : TokenKind} {text : Text} (line : Int) (hkind : kind.isBare = true)
      (htext : ∀ c ∈ text, isFieldChar c = true) : Spelt ⟨kind, text, none, line⟩

variable {line : Int} {token : Token}

theorem Token.Spelt.of_number {whole decimals : Text} (hne : whole ≠ [])
    (hwhole : ∀ c ∈ whole, isDigit c = true) (hdecimals : ∀ c ∈ decimals, isDigit c = true)
    (h : Lexeme.token? line ⟨.number, whole ++ DecimalNotation.fractionText decimals⟩ =
      some token) : token.Spelt := by
  have hvalue := Numeral.read?_spelt hne hwhole hdecimals
  simp only [Lexeme.token?, Lexeme.kind?, Lexeme.literal?, hvalue, Option.map_some,
    Option.some.injEq] at h
  rw [← h]
  exact .number line hne hwhole hdecimals

/-- The token that stands at the front of a text is spelt in one of the ways. -/
theorem Front.spelt {text rest : Text} {lexeme : Lexeme} (h : Front text lexeme rest)
    (htoken : lexeme.token? line = some token) : token.Spelt := by
  cases h with
  | blank | lineFeed | comment | unclosed | unclosedAtEnd | stray => contradiction
  | single hc =>
      cases htoken
      have hall : ∀ d ∈ ['(', ')', '{', '}', ',', '.', '-', '+', ';', '*'], isFieldChar d = true :=
        Text.forall_mem_of_all (by decide)
      exact .bare line (isBare_of_single? hc) (by simpa using hall _ (mem_of_single? hc))
  | slash =>
      cases htoken
      exact .bare line rfl (List.forall_mem_singleton.mpr rfl)
  | operator hc =>
      cases htoken
      have hfield := isFieldChar_of_operator? hc
      exact .bare line (isBare_of_operator? hc).1 (by simpa using hfield)
  | operatorEqual hc =>
      cases htoken
      refine .bare line (isBare_of_operator? hc).2 ?_
      exact List.forall_mem_cons.mpr
        ⟨isFieldChar_of_operator? hc, List.forall_mem_singleton.mpr rfl⟩
  | string hbody =>
      cases htoken
      simpa [Lexeme.literal?] using Token.Spelt.string line hbody
  | @integer c digits _ hc hdigits =>
      have hwhole : ∀ d ∈ c :: digits, isDigit d = true := List.forall_mem_cons.mpr ⟨hc, hdigits⟩
      have hlexeme : Lexeme.token? line
          ⟨.number, (c :: digits) ++ DecimalNotation.fractionText []⟩ = some token := by
        simpa [DecimalNotation.fractionText] using htoken
      exact .of_number (List.cons_ne_nil c digits) hwhole (List.forall_mem_nil _) hlexeme
  | @fraction c d digits decimals _ hc hdigits hd hmore =>
      have hwhole : ∀ e ∈ c :: digits, isDigit e = true := List.forall_mem_cons.mpr ⟨hc, hdigits⟩
      have hdecimals : ∀ e ∈ d :: decimals, isDigit e = true :=
        List.forall_mem_cons.mpr ⟨hd, hmore⟩
      have hlexeme : Lexeme.token? line
          ⟨.number, (c :: digits) ++ DecimalNotation.fractionText (d :: decimals)⟩ =
            some token := by
        simpa [DecimalNotation.fractionText] using htoken
      exact .of_number (List.cons_ne_nil c digits) hwhole hdecimals hlexeme
  | word hc hbody =>
      cases htoken
      have hfirst := isFieldChar_of_property hc (by decide) (by decide)
      refine .bare line (isBare_ofWord _) (List.forall_mem_cons.mpr ⟨hfirst, fun d hd => ?_⟩)
      exact isFieldChar_of_property (hbody d hd) (by decide) (by decide)

theorem Token.Spelt.kind_ne_eof (h : token.Spelt) : token.kind ≠ .eof := by
  cases h with
  | string | number => simp
  | bare _ hkind => exact (TokenKind.ne_of_isBare hkind).2.2

/-- The tokens of a source are spelt in one of the ways, and the end of file stands behind them. -/
theorem exists_tokens_eq (source : Text) :
    ∃ found line, tokens source = found ++ [Token.endOfFile line] ∧
      ∀ token ∈ found, token.Spelt := by
  refine ⟨_, _, tokensOf_eq 1 (lexemes source), fun token htoken => ?_⟩
  obtain ⟨lexeme, hlexeme, line, hline⟩ := exists_lexeme_of_mem_scannedOf htoken
  obtain ⟨text, rest, hfront⟩ := exists_front_of_mem_lexemes hlexeme
  exact hfront.spelt hline

theorem spelt_or_endOfFile {source : Text} (h : token ∈ tokens source) :
    token.Spelt ∨ ∃ line, token = Token.endOfFile line := by
  obtain ⟨found, line, htokens, hspelt⟩ := exists_tokens_eq source
  rw [htokens] at h
  rcases List.mem_append.mp h with hfound | hend
  · exact .inl (hspelt token hfound)
  · exact .inr ⟨line, List.mem_singleton.mp hend⟩

end LoxLexer
