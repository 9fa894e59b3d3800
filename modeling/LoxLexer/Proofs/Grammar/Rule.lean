import LoxLexer.Character
import LoxLexer.Token
import LoxLexer.Proofs.Number.PlainNumeral
import Mathlib.Computability.Language

/-!
# The lexical grammar

The lexemes of Lox, given by regular languages alone: nothing here looks at a text from the left or
decides where a lexeme ends.

* `Rule` — the seven rules of the grammar; `Rule.language` — the texts that a rule matches.
* `Rule.kind?`, `Rule.literal?` — what a text counts as by its rule.
* `mem_comment`, `mem_string`, `mem_number`, `mem_word`, … — the languages spelt out as texts.
* `Rule.exists_kind`, `exists_value` — every text of a token rule has a kind, every number a value.
-/

namespace LoxLexer
namespace Grammar

open Computability

/-- The texts of one character out of a class. -/
def oneOf (chars : Set Char) : Language Char := {text | ∃ c ∈ chars, text = [c]}

/-- An ASCII digit. -/
def digit : Language Char := oneOf {c | '0' ≤ c ∧ c ≤ '9'}

/-- An ASCII letter or the underscore. -/
def letter : Language Char := oneOf {c | 'a' ≤ c ∧ c ≤ 'z' ∨ 'A' ≤ c ∧ c ≤ 'Z' ∨ c = '_'}

/-- The rules of the grammar. -/
inductive Rule
  | whiteSpace
  | comment
  | punctuation
  | operator
  | string
  | number
  | word
deriving DecidableEq, Repr

/-- The texts that a rule matches. -/
def Rule.language : Rule → Language Char
  | whiteSpace => oneOf {' ', '\t', '\r', '\n'}
  | comment => oneOf {'/'} * oneOf {'/'} * (oneOf {c | c ≠ '\n'})∗
  | punctuation => oneOf {'(', ')', '{', '}', ',', '.', '-', '+', ';', '*', '/'}
  | operator => oneOf {'!', '=', '<', '>'} * (1 + oneOf {'='})
  | string => oneOf {'"'} * (oneOf {c | c ≠ '"' ∧ c ≠ '\n'})∗ * oneOf {'"'}
  | number => digit * digit∗ * (1 + oneOf {'.'} * digit * digit∗)
  | word => letter * (letter + digit)∗

/-- The kinds of the tokens made of punctuation or operator characters. -/
def symbolKinds : List (Text × TokenKind) :=
  [(['('], .leftParen), ([')'], .rightParen), (['{'], .leftBrace), (['}'], .rightBrace),
    ([','], .comma), (['.'], .dot), (['-'], .minus), (['+'], .plus), ([';'], .semicolon),
    (['*'], .star), (['/'], .slash), (['!'], .bang), (['!', '='], .bangEqual), (['='], .equal),
    (['=', '='], .equalEqual), (['<'], .less), (['<', '='], .lessEqual), (['>'], .greater),
    (['>', '='], .greaterEqual)]

/-- The kind of token that a text is by its rule; white space and comments are none.  A word has
the kind of its own if the whole word is reserved. -/
def Rule.kind? (rule : Rule) (text : Text) : Option TokenKind :=
  match rule with
  | whiteSpace | comment => none
  | punctuation | operator => symbolKinds.lookup text
  | string => some .string
  | number => some .number
  | word => some ((TokenKind.reserved.lookup text).getD .identifier)

/-- The value that a text has by its rule: what stands between the quotes, or the number. -/
def Rule.literal? (rule : Rule) (text : Text) : Option Literal :=
  match rule with
  | string => some (.text (text.drop 1).dropLast)
  | number => (Numeral.read? text).map .number
  | _ => none

/-! ### The languages spelt out -/

theorem mem_oneOf {chars : Set Char} {text : Text} :
    text ∈ oneOf chars ↔ ∃ c ∈ chars, text = [c] := Iff.rfl

theorem mem_oneOf_mul {chars : Set Char} {language : Language Char} {text : Text} :
    text ∈ oneOf chars * language ↔ ∃ c ∈ chars, ∃ rest ∈ language, text = c :: rest := by
  constructor
  · rintro ⟨_, ⟨c, hc, rfl⟩, rest, hrest, rfl⟩
    exact ⟨c, hc, rest, hrest, rfl⟩
  · rintro ⟨c, hc, rest, hrest, rfl⟩
    exact ⟨[c], ⟨c, hc, rfl⟩, rest, hrest, rfl⟩

theorem oneOf_add (chars more : Set Char) : oneOf chars + oneOf more = oneOf (chars ∪ more) := by
  ext text
  rw [Language.mem_add, mem_oneOf, mem_oneOf, mem_oneOf, ← exists_or]
  simp only [Set.mem_union, or_and_right]

/-- Repeating one character out of a class gives the texts of characters of the class. -/
theorem mem_kstar_oneOf {chars : Set Char} {text : Text} :
    text ∈ (oneOf chars)∗ ↔ ∀ c ∈ text, c ∈ chars := by
  constructor
  · rintro ⟨pieces, rfl, hpieces⟩ c hc
    obtain ⟨piece, hpiece, hmem⟩ := List.mem_flatten.mp hc
    obtain ⟨d, hd, rfl⟩ := hpieces piece hpiece
    rwa [List.mem_singleton.mp hmem]
  · intro htext
    -- the text is the pieces of one character each
    refine ⟨text.map fun c => [c], ?_, ?_⟩
    · rw [← List.flatMap_def, List.flatMap_singleton']
    · intro piece hpiece
      obtain ⟨c, hc, rfl⟩ := List.mem_map.mp hpiece
      exact ⟨c, htext c hc, rfl⟩

theorem mem_digits {text : Text} : text ∈ digit∗ ↔ ∀ c ∈ text, isDigit c = true := by
  simp [digit, mem_kstar_oneOf, isDigit_iff]

theorem mem_digit_mul {language : Language Char} {text : Text} :
    text ∈ digit * language ↔
      ∃ c, isDigit c = true ∧ ∃ rest ∈ language, text = c :: rest := by
  simp [digit, mem_oneOf_mul, isDigit_iff]

theorem mem_comment {text : Text} :
    text ∈ Rule.comment.language ↔
      ∃ body, (∀ c ∈ body, isCommentChar c = true) ∧ text = '/' :: '/' :: body := by
  simp [Rule.language, mul_assoc, mem_oneOf_mul, mem_kstar_oneOf, isCommentChar]

theorem mem_operator {text : Text} :
    text ∈ Rule.operator.language ↔
      ∃ c ∈ ['!', '=', '<', '>'], text = [c] ∨ text = [c, '='] := by
  have hchars (c : Char) : c ∈ ['!', '=', '<', '>'] ↔ c ∈ ({'!', '=', '<', '>'} : Set Char) := by
    simp
  constructor
  · intro h
    obtain ⟨c, hc, rest, hrest, rfl⟩ := mem_oneOf_mul.mp h
    refine ⟨c, (hchars c).mpr hc, ?_⟩
    rcases (Language.mem_add _ _ _).mp hrest with rfl | ⟨d, rfl, rfl⟩
    · exact .inl rfl
    · exact .inr rfl
  · rintro ⟨c, hc, rfl | rfl⟩
    · exact mem_oneOf_mul.mpr ⟨c, (hchars c).mp hc, [], .inl rfl, rfl⟩
    · exact mem_oneOf_mul.mpr ⟨c, (hchars c).mp hc, ['='], .inr ⟨'=', rfl, rfl⟩, rfl⟩

theorem mem_string {text : Text} :
    text ∈ Rule.string.language ↔
      ∃ body, (∀ c ∈ body, isStringChar c = true) ∧ text = '"' :: (body ++ ['"']) := by
  have hchars (body : Text) :
      body ∈ (oneOf {c | c ≠ '"' ∧ c ≠ '\n'})∗ ↔ ∀ c ∈ body, isStringChar c = true := by
    simp [mem_kstar_oneOf, isStringChar]
  constructor
  · rintro ⟨_, ⟨_, ⟨_, rfl, rfl⟩, body, hbody, rfl⟩, _, ⟨_, rfl, rfl⟩, rfl⟩
    exact ⟨body, (hchars body).mp hbody, rfl⟩
  · rintro ⟨body, hbody, rfl⟩
    exact ⟨'"' :: body, ⟨['"'], ⟨'"', rfl, rfl⟩, body, (hchars body).mpr hbody, rfl⟩, ['"'],
      ⟨'"', rfl, rfl⟩, rfl⟩

/-- A number: digits, and perhaps a point and digits. -/
theorem mem_number {text : Text} :
    text ∈ Rule.number.language ↔
      ∃ c digits, isDigit c = true ∧ (∀ d ∈ digits, isDigit d = true) ∧
        (text = c :: digits ∨
          ∃ d decimals, isDigit d = true ∧ (∀ e ∈ decimals, isDigit e = true) ∧
            text = c :: (digits ++ '.' :: d :: decimals)) := by
  rw [Rule.language, mul_assoc, mul_assoc, mem_digit_mul]
  constructor
  · rintro ⟨c, hc, _, ⟨digits, hdigits, fraction, hfraction, rfl⟩, rfl⟩
    refine ⟨c, digits, hc, mem_digits.mp hdigits, ?_⟩
    rcases (Language.mem_add _ _ _).mp hfraction with rfl | hfraction
    · exact .inl (by simp)
    · obtain ⟨_, rfl, rest, hrest, rfl⟩ := mem_oneOf_mul.mp hfraction
      obtain ⟨d, hd, decimals, hdecimals, rfl⟩ := mem_digit_mul.mp hrest
      exact .inr ⟨d, decimals, hd, mem_digits.mp hdecimals, rfl⟩
  · rintro ⟨c, digits, hc, hdigits, rfl | ⟨d, decimals, hd, hdecimals, rfl⟩⟩
    · exact ⟨c, hc, digits, ⟨digits, mem_digits.mpr hdigits, [], .inl rfl, by simp⟩, rfl⟩
    · have hrest := mem_digit_mul.mpr ⟨d, hd, decimals, mem_digits.mpr hdecimals, rfl⟩
      have hfraction : '.' :: d :: decimals ∈ oneOf {'.'} * (digit * digit∗) :=
        mem_oneOf_mul.mpr ⟨'.', rfl, _, hrest, rfl⟩
      exact ⟨c, hc, _, ⟨digits, mem_digits.mpr hdigits, _, .inr hfraction, rfl⟩, rfl⟩

theorem mem_word {text : Text} :
    text ∈ Rule.word.language ↔
      ∃ c body, isWordStart c = true ∧ (∀ d ∈ body, isWordChar d = true) ∧ text = c :: body := by
  have hchars (body : Text) :
      body ∈ (letter + digit)∗ ↔ ∀ d ∈ body, isWordChar d = true := by
    rw [letter, digit, oneOf_add, mem_kstar_oneOf]
    simp [isWordChar, isWordStart_iff, isDigit_iff]
  rw [Rule.language, letter, mem_oneOf_mul]
  constructor
  · rintro ⟨c, hc, body, hbody, rfl⟩
    exact ⟨c, body, isWordStart_iff.mpr hc, (hchars body).mp hbody, rfl⟩
  · rintro ⟨c, body, hc, hbody, rfl⟩
    exact ⟨c, isWordStart_iff.mp hc, body, (hchars body).mpr hbody, rfl⟩

/-! ### Every text of a token rule is a token -/

/-- The rules whose texts are tokens. -/
def Rule.IsToken (rule : Rule) : Prop := rule ≠ .whiteSpace ∧ rule ≠ .comment

theorem Rule.exists_kind {rule : Rule} {piece : Text} (hpiece : piece ∈ rule.language)
    (hrule : rule.IsToken) : ∃ kind, rule.kind? piece = some kind := by
  cases rule with
  | whiteSpace => exact absurd rfl hrule.1
  | comment => exact absurd rfl hrule.2
  | punctuation =>
      obtain ⟨c, hc, rfl⟩ := hpiece
      have hall : ∀ d ∈ ['(', ')', '{', '}', ',', '.', '-', '+', ';', '*', '/'],
          (symbolKinds.lookup [d]).isSome = true := Text.forall_mem_of_all (by decide)
      exact Option.isSome_iff_exists.mp (hall c (by simpa using hc))
  | operator =>
      obtain ⟨c, hc, hpiece⟩ := mem_operator.mp hpiece
      have hall : ∀ d ∈ ['!', '=', '<', '>'], (symbolKinds.lookup [d]).isSome = true ∧
          (symbolKinds.lookup [d, '=']).isSome = true := Text.forall_mem_of_all (by decide)
      rcases hpiece with rfl | rfl
      · exact Option.isSome_iff_exists.mp (hall c hc).1
      · exact Option.isSome_iff_exists.mp (hall c hc).2
  | string => exact ⟨_, rfl⟩
  | number => exact ⟨_, rfl⟩
  | word => exact ⟨_, rfl⟩

/-- A text of the number rule is read as a number. -/
theorem exists_value {piece : Text} (h : piece ∈ Rule.number.language) :
    ∃ value, Numeral.read? piece = some value := by
  obtain ⟨c, digits, hc, hdigits, rfl | ⟨d, decimals, hd, hdecimals, rfl⟩⟩ := mem_number.mp h
  · exact ⟨_, Numeral.read?_integer hc hdigits⟩
  · exact ⟨_, Numeral.read?_fraction hc hdigits hd hdecimals⟩

end Grammar
end LoxLexer
