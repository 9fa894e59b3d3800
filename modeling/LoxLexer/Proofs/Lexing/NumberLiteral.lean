import LoxLexer.Proofs.Lexing.Respelling
import LoxLexer.Proofs.Listing.Overflow
import LoxLexer.Proofs.Number.Nearest
import LoxLexer.Proofs.Number.Reading

/-!
# Literals of numbers

The literal of a number is the value nearest to the rational that its text spells.  It depends on
nothing else of the text: zeros in front and behind the last decimal do not matter, and a larger
number never has a smaller literal.  What is listed of a literal is read back as the same value.

* `Numeral.Pads` — a text spells a number with more zeros than another.
* `Numeral.nearest_spelt` — the value of a number is the nearest to what it spells.
* `Token.Denotes` — what holds of a number and its literal.
* `scanned_number_nearest` — the literals of all numbers that are scanned.
-/

namespace LoxLexer

namespace Numeral

/-- A text spells a number as another does, with zeros added in front and behind the last decimal; if
there is no decimal yet, a point comes before them. -/
def Pads (text padded : Text) : Prop :=
  ∃ whole decimals zeros places,
    (∀ c ∈ whole, isDigit c = true) ∧ (∀ c ∈ decimals, isDigit c = true) ∧
      text = whole ++ DecimalNotation.fractionText decimals ∧
      padded = (List.replicate zeros '0' ++ whole) ++
        DecimalNotation.fractionText (decimals ++ List.replicate places '0')

theorem isDigit_of_mem_zeros {count : Nat} {c : Char} (h : c ∈ List.replicate count '0') :
    isDigit c = true := by
  rw [(List.mem_replicate.mp h).2]
  rfl

/-- Padding a number does not change the rational that it spells. -/
theorem Pads.magnitude_eq {text padded : Text} (h : Pads text padded) :
    magnitude padded = magnitude text := by
  obtain ⟨whole, decimals, zeros, places, hwhole, hdecimals, rfl, rfl⟩ := h
  have hfront : ∀ c ∈ List.replicate zeros '0' ++ whole, isDigit c = true := by
    intro c hc
    exact (List.mem_append.mp hc).elim isDigit_of_mem_zeros (hwhole c)
  have hbehind : ∀ c ∈ decimals ++ List.replicate places '0', isDigit c = true := by
    intro c hc
    exact (List.mem_append.mp hc).elim (hdecimals c) isDigit_of_mem_zeros
  have hdigits : digitsValue ((List.replicate zeros '0' ++ whole) ++
      (decimals ++ List.replicate places '0')) = digitsValue (whole ++ decimals) * 10 ^ places := by
    rw [List.append_assoc, ← List.append_assoc whole, digitsValue_append, digitsValue_append,
      digitsValue_replicate_zero, digitsValue_replicate_zero, List.length_replicate, Nat.zero_mul,
      Nat.zero_add, Nat.add_zero]
  have hpower : (10 : ℚ) ^ places ≠ 0 := by positivity
  rw [magnitude_spelt hfront hbehind, magnitude_spelt hwhole hdecimals, hdigits,
    List.length_append, List.length_replicate, pow_add, Nat.cast_mul, Nat.cast_pow,
    Nat.cast_ofNat, mul_div_mul_right _ _ hpower]

/-- The value of a number is the nearest to what it spells. -/
theorem nearest_spelt {whole decimals : Text} (hwhole : ∀ c ∈ whole, isDigit c = true)
    (hdecimals : ∀ c ∈ decimals, isDigit c = true) :
    Binary64.Nearest (magnitude (whole ++ DecimalNotation.fractionText decimals))
      (spelt whole decimals) := by
  have hten : (tenTo decimals.length : ℚ) = 10 ^ decimals.length := Nat.cast_pow 10 decimals.length
  rw [magnitude_spelt hwhole hdecimals, spelt_eq_ofRatio, ← hten]
  exact Binary64.nearest_ofRatio _ (tenTo_pos _)

end Numeral

/-- The literal of a number is the value nearest to what its text spells.  Listed behind the text, it
is read back as the same value. -/
structure Token.Denotes (token : Token) (value : Binary64) : Prop where
  literal_eq : token.literal = some (.number value)
  nearest : Binary64.Nearest (Numeral.magnitude token.lexeme) value
  toText_eq : token.toText = token.kind.name ++ ' ' :: token.lexeme ++ ' ' :: value.toText
  read?_toText_eq : Numeral.read? value.toText = some value

variable {token other : Token}

theorem Token.Spelt.exists_denotes (h : token.Spelt) (hkind : token.kind = .number) :
    ∃ value, token.Denotes value := by
  cases h with
  | string => contradiction
  | number line hne hwhole hdecimals =>
      exact ⟨_, rfl, Numeral.nearest_spelt hwhole hdecimals, rfl, Binary64.read?_toText _⟩
  | bare line hbare => exact absurd hkind (TokenKind.ne_of_isBare hbare).2.1

theorem Token.IsScanned.exists_denotes (h : token.IsScanned) (hkind : token.kind = .number) :
    ∃ value, token.Denotes value := by
  obtain ⟨text, lexeme, rest, line, hfront, htoken⟩ := h.exists_front
  exact (hfront.spelt htoken).exists_denotes hkind

/-- Whatever numbers are scanned, their literals are the values nearest to the rationals that they
spell, and what is listed of them is read back as the same values.  So numbers that spell the same
rational have the same literal, listed by the same text, in particular if one is the other with more
zeros; and of two numbers the larger has no smaller literal. -/
theorem scanned_number_nearest (h : token.IsScanned) (hkind : token.kind = .number)
    (hother : other.IsScanned) (hkind' : other.kind = .number) :
    ∃ value value', token.Denotes value ∧ other.Denotes value' ∧
      (Numeral.magnitude token.lexeme = Numeral.magnitude other.lexeme →
        token.literal = other.literal ∧ value.toText = value'.toText) ∧
      (Numeral.Pads token.lexeme other.lexeme →
        token.literal = other.literal ∧ value.toText = value'.toText) ∧
      (Numeral.magnitude token.lexeme ≤ Numeral.magnitude other.lexeme → ¬ value'.Less value) := by
  obtain ⟨value, hvalue⟩ := h.exists_denotes hkind
  obtain ⟨value', hvalue'⟩ := hother.exists_denotes hkind'
  have hsame (heq : Numeral.magnitude token.lexeme = Numeral.magnitude other.lexeme) :
      token.literal = other.literal ∧ value.toText = value'.toText := by
    have hnearest := hvalue.nearest
    rw [heq] at hnearest
    obtain rfl := hnearest.unique hvalue'.nearest
    exact ⟨hvalue.literal_eq.trans hvalue'.literal_eq.symm, rfl⟩
  exact ⟨value, value', hvalue, hvalue', hsame, fun hpads => hsame hpads.magnitude_eq.symm,
    fun hle => hvalue.nearest.not_less hvalue'.nearest hle⟩

/-- A number in the middle of two values. -/
def middleToken : Token :=
  ⟨.number, "9007199254740993".toList, some (.number (.ofRatio false 9007199254740992 1)), 1⟩

/-- The same number, padded. -/
def paddedToken : Token := { middleToken with lexeme := "009007199254740993.00".toList }

/-- The first integer that is no value is rounded down to an even significand, and so it is when it is
written with more zeros. -/
theorem scanned_number_nearest_middle :
    middleToken.IsScanned ∧ middleToken.kind = .number ∧ paddedToken.IsScanned ∧
      paddedToken.kind = .number ∧
      Numeral.Pads middleToken.lexeme paddedToken.lexeme ∧
      ∃ value value', middleToken.Denotes value ∧ paddedToken.Denotes value' ∧
        middleToken.literal = paddedToken.literal ∧ value.toText = value'.toText ∧
        ¬ value'.Less value := by
  have hmiddle : middleToken.IsScanned :=
    Token.isScanned_of_mem "x = 9007199254740993;".toList (by decide) (by decide +kernel)
  have hpadded : paddedToken.IsScanned :=
    Token.isScanned_of_mem "009007199254740993.00".toList (by decide) (by decide +kernel)
  have hpads : Numeral.Pads middleToken.lexeme paddedToken.lexeme :=
    ⟨"9007199254740993".toList, [], 2, 2, List.all_eq_true.mp (by decide), by simp, by decide,
      by decide⟩
  obtain ⟨value, value', hvalue, hvalue', -, hsame, horder⟩ :=
    scanned_number_nearest hmiddle rfl hpadded rfl
  exact ⟨hmiddle, rfl, hpadded, rfl, hpads, value, value', hvalue, hvalue', (hsame hpads).1,
    (hsame hpads).2, horder hpads.magnitude_eq.ge⟩

end LoxLexer
