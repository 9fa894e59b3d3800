import LoxLexer.Proofs.Lexing.Spelling
import LoxLexer.Proofs.Listing.Records

/-!
# Numbers too large for a listing

A source may hold a number of any size.  Its value is infinite from the midpoint between the largest
finite value and the next power of two on, and a listing in JSON is then no document, because an
infinite value is listed as a word.

* `Numeral.magnitude` — the rational that a number in a source spells.
* `Numeral.isFinite_spelt_iff` — which numbers have finite values.
* `isDocument_list_tokens_iff` — the listings of sources that are documents.
* `not_isDocument_list_tokens` — a source with a listing that is none.
-/

namespace LoxLexer

/-- A ratio that is not rounded to infinity is rounded to a finite value. -/
theorem Binary64.isFinite_ofRatio_iff {negative : Bool} {num den : Nat} (hden : 0 < den) :
    (ofRatio negative num den).IsFinite ↔ num < leastInfinite * den := by
  have hiff : ofRatio negative num den = infinite negative ↔ leastInfinite * den ≤ num :=
    ofRatio_eq_infinite_iff hden
  rw [← Nat.not_le, ← hiff, ofRatio, ofRank]
  split
  · simp [IsFinite]
  · simp [IsFinite]

namespace Numeral

/-- The rational that a number spells: its digits without the point, scaled down by the number of
digits behind the point. -/
def magnitude (text : Text) : ℚ :=
  digitsValue (text.filter isDigit) / 10 ^ ((text.dropWhile isDigit).drop 1).length

theorem magnitude_spelt {whole decimals : Text} (hwhole : ∀ c ∈ whole, isDigit c = true)
    (hdecimals : ∀ c ∈ decimals, isDigit c = true) :
    magnitude (whole ++ DecimalNotation.fractionText decimals) =
      digitsValue (whole ++ decimals) / 10 ^ decimals.length := by
  have hstops := DecimalNotation.stops_fractionText decimals none
  rw [DecimalNotation.exponentText, Option.map_none, Option.getD_none, List.append_nil] at hstops
  have hdigits : (DecimalNotation.fractionText decimals).filter isDigit = decimals := by
    have hself := List.filter_eq_self.mpr hdecimals
    unfold DecimalNotation.fractionText
    split
    · simp_all
    · rw [List.filter_cons_of_neg (by decide), hself]
  have hbehind : (DecimalNotation.fractionText decimals).drop 1 = decimals := by
    unfold DecimalNotation.fractionText
    split
    · simp_all
    · rfl
  rw [magnitude, List.filter_append, List.filter_eq_self.mpr hwhole, hdigits,
    Text.dropWhile_run hwhole hstops, hbehind]

/-- The value of a number is a ratio that is rounded. -/
theorem spelt_eq_ofRatio (whole decimals : Text) :
    spelt whole decimals =
      Binary64.ofRatio false (digitsValue (whole ++ decimals)) (tenTo decimals.length) := by
  have hnum : (-(decimals.length : Int)).toNat = 0 := by omega
  have hden : (- -(decimals.length : Int)).toNat = decimals.length := by omega
  rw [spelt, Binary64.ofScientific_eq_ofRatio, hnum, hden, tenTo_zero, Nat.mul_one]

/-- A number has a finite value if it is below the midpoint between the largest finite value and the
next power of two. -/
theorem isFinite_spelt_iff (whole decimals : Text) :
    (spelt whole decimals).IsFinite ↔
      (digitsValue (whole ++ decimals) / 10 ^ decimals.length : ℚ) < Binary64.leastInfinite := by
  have hpower : (0 : ℚ) < 10 ^ decimals.length := by positivity
  have hten : (tenTo decimals.length : ℚ) = 10 ^ decimals.length := Nat.cast_pow 10 decimals.length
  rw [spelt_eq_ofRatio, Binary64.isFinite_ofRatio_iff (tenTo_pos _), div_lt_iff₀ hpower, ← hten,
    ← Nat.cast_mul, Nat.cast_lt]

end Numeral

/-! ### Tokens of sources -/

theorem Token.isFinite_iff_of_kind_ne {token : Token} {bounded : Prop}
    (hkind : token.kind ≠ .number) (hliteral : ∀ value, token.literal ≠ some (.number value)) :
    token.IsFinite ↔ (token.kind = .number → bounded) :=
  ⟨fun _ h => absurd h hkind, fun _ value h => absurd h (hliteral value)⟩

/-- The literal of a token of a source is finite unless the token is a number that is too large. -/
theorem Token.Spelt.isFinite_iff {token : Token} (h : token.Spelt) :
    token.IsFinite ↔
      (token.kind = .number → Numeral.magnitude token.lexeme < Binary64.leastInfinite) := by
  cases h with
  | string => exact isFinite_iff_of_kind_ne TokenKind.noConfusion (by simp)
  | number line hne hwhole hdecimals =>
      rw [Numeral.magnitude_spelt hwhole hdecimals, ← Numeral.isFinite_spelt_iff]
      constructor
      · exact fun h _ => h _ rfl
      · intro h value hvalue
        cases hvalue
        exact h rfl
  | bare line hkind =>
      exact isFinite_iff_of_kind_ne (TokenKind.ne_of_isBare hkind).2.1 (by simp)

theorem isFinite_iff_of_mem_tokens {source : Text} {token : Token} (h : token ∈ tokens source) :
    token.IsFinite ↔
      (token.kind = .number → Numeral.magnitude token.lexeme < Binary64.leastInfinite) := by
  obtain hspelt | ⟨line, rfl⟩ := spelt_or_endOfFile h
  · exact hspelt.isFinite_iff
  · exact Token.isFinite_iff_of_kind_ne TokenKind.noConfusion (by simp [Token.endOfFile])

/-- The listing of a source is a document if and only if every number in it is below the least that
is rounded to infinity. -/
theorem isDocument_list_tokens_iff (showEof : Bool) (source : Text) :
    Json.IsDocument (Format.json.list showEof (tokens source)) ↔
      ∀ token ∈ tokens source, token.kind = .number →
        Numeral.magnitude token.lexeme < Binary64.leastInfinite := by
  rw [isDocument_list_iff]
  constructor
  · intro h token htoken hkind
    have hshown : token ∈ shown showEof (tokens source) := by
      cases showEof with
      | true => exact htoken
      | false => exact List.mem_filter.mpr ⟨htoken, by simp [hkind]⟩
    exact (isFinite_iff_of_mem_tokens htoken).mp (h token hshown) hkind
  · intro h token hshown
    have htoken := mem_of_mem_shown hshown
    exact (isFinite_iff_of_mem_tokens htoken).mpr (h token htoken)

/-! ### A number that is too large -/

theorem Numeral.digitsValue_one_zeros (zeros : Nat) :
    digitsValue ('1' :: List.replicate zeros '0') = tenTo zeros := by
  have hone : digitsValue ['1'] = 1 := rfl
  rw [← List.singleton_append, digitsValue_append, digitsValue_replicate_zero,
    List.length_replicate, hone, Nat.one_mul, Nat.add_zero]
  rfl

/-- A source of digits only is one number, however many there are. -/
theorem number_mem_tokens {c : Char} {digits : Text} (hc : isDigit c = true)
    (hdigits : ∀ d ∈ digits, isDigit d = true) :
    (⟨.number, c :: digits, some (.number (Numeral.spelt (c :: digits) [])), 1⟩ : Token) ∈
      tokens (c :: digits) := by
  have hpoint : ¬ StartsFraction [] := by
    rintro ⟨d, rest, hnil, -⟩
    exact absurd hnil (List.cons_ne_nil _ _).symm
  have hfront : Front (c :: (digits ++ [])) ⟨.number, c :: digits⟩ [] :=
    .integer hc hdigits (Text.stops_nil isDigit) hpoint
  have hlexemes := hfront.lexemes_eq
  have hvalue := Numeral.read?_spelt (List.cons_ne_nil c digits)
    (List.forall_mem_cons.mpr ⟨hc, hdigits⟩) (List.forall_mem_nil _)
  rw [DecimalNotation.fractionText, if_pos rfl, List.append_nil] at hvalue
  rw [List.append_nil, lexemes_nil] at hlexemes
  show _ ∈ tokensOf 1 (lexemes (c :: digits))
  rw [hlexemes]
  simp [tokensOf, Lexeme.token?, Lexeme.kind?, Lexeme.literal?, hvalue]

/-- A one with four hundred zeros is a token like any other, but its listing is no document. -/
theorem not_isDocument_list_tokens :
    ¬ Json.IsDocument (Format.json.list true (tokens ('1' :: List.replicate 400 '0'))) := by
  have hzeros : ∀ c ∈ List.replicate 400 '0', isDigit c = true := by
    intro c hc
    rw [(List.mem_replicate.mp hc).2]
    rfl
  have hlarge : Binary64.leastInfinite ≤ tenTo 400 :=
    calc Binary64.leastInfinite ≤ twoTo 1024 := Nat.sub_le _ _
      _ ≤ twoTo (3 * 400) := twoTo_le_twoTo (by decide)
      _ ≤ tenTo 400 := twoTo_le_tenTo 400
  rw [isDocument_list_iff]
  intro h
  have hfinite := h _ (number_mem_tokens rfl hzeros) _ rfl
  rw [Numeral.isFinite_spelt_iff, List.append_nil, Numeral.digitsValue_one_zeros, List.length_nil,
    pow_zero, div_one, Nat.cast_lt] at hfinite
  exact absurd hlarge (Nat.not_le.mpr hfinite)

end LoxLexer
