import LoxLexer.Proofs.Text.Hexadecimal
import LoxLexer.Text.Quoted

/-!
# Quoted text is known from its notation

The delimiter of quoted text depends on the text, and what stands between the delimiters is partly
escaped.  All the same the notation ends where it ends in one way only: a delimiter inside is
escaped, and from the character behind a backslash it is known how far the escape goes.

* `Text.unescape` — reads the notation of one character.
* `Text.unescape_escape` — and finds the character, whatever follows.
* `Text.quoted_unique` — a text is known from its notation, and so is where the notation ends.
-/

namespace LoxLexer
namespace Text

/-- The characters that quoted text is delimited with. -/
def IsQuote (c : Char) : Prop := c = '\'' ∨ c = '"'

theorem isQuote_quoteFor (text : Text) : IsQuote (quoteFor text) := by
  unfold quoteFor
  split
  · exact .inr rfl
  · exact .inl rfl

/-! ### Characters -/

/-- The code point of an escape, read behind its backslash, and what follows. -/
def readEscape : Text → Nat × Text
  | [] => (0, [])
  | letter :: rest =>
    if letter = 'n' then ('\n'.toNat, rest)
    else if letter = 'r' then ('\r'.toNat, rest)
    else if letter = 't' then ('\t'.toNat, rest)
    else if letter = 'x' then (valueInBase 16 (rest.take 2), rest.drop 2)
    else if letter = 'u' then (valueInBase 16 (rest.take 4), rest.drop 4)
    else if letter = 'U' then (valueInBase 16 (rest.take 8), rest.drop 8)
    else (letter.toNat, rest)

/-- The code point of the character whose notation a text starts with, and what follows. -/
def unescape : Text → Nat × Text
  | [] => (0, [])
  | c :: rest => if c = '\\' then readEscape rest else (c.toNat, rest)

theorem read_hex (width : Nat) {n : Nat} (h : n < 16 ^ width) (rest : Text) :
    (valueInBase 16 ((hex width n ++ rest).take width), (hex width n ++ rest).drop width) =
      (n, rest) := by
  rw [List.take_left' (length_hex width n), List.drop_left' (length_hex width n),
    valueInBase_hex h]

theorem unescape_escapeCodePoint (c : Char) (rest : Text) :
    unescape (escapeCodePoint c.toNat ++ rest) = (c.toNat, rest) := by
  have hlt : c.toNat < 0x110000 := by
    have hvalid : c.toNat < 0xd800 ∨ 0xdfff < c.toNat ∧ c.toNat < 0x110000 := c.valid
    omega
  unfold escapeCodePoint
  by_cases hbyte : c.toNat < 0x100
  · rw [if_pos hbyte]
    exact read_hex 2 hbyte rest
  · rw [if_neg hbyte]
    by_cases hbasic : c.toNat < 0x10000
    · rw [if_pos hbasic]
      exact read_hex 4 hbasic rest
    · rw [if_neg hbasic]
      exact read_hex 8 (by omega) rest

/-- Reading the notation of a character finds the character, whatever follows. -/
theorem unescape_escape {quote : Char} (hquote : IsQuote quote) (c : Char) (rest : Text) :
    unescape (escape quote c ++ rest) = (c.toNat, rest) := by
  unfold escape
  split
  · rename_i hmarked
    obtain rfl | rfl := hmarked
    · obtain rfl | rfl := hquote <;> rfl
    · rfl
  rename_i hmarked
  -- the controls with an escape of their own
  iterate 3
    split
    · subst c
      rfl
  split
  · exact if_neg fun hbackslash => hmarked (.inr hbackslash)
  · exact unescape_escapeCodePoint c rest

example : unescape "\\u2028 more".toList = (0x2028, " more".toList) := by decide

/-- A character is known from its notation, and so is where the notation ends. -/
theorem escape_unique {quote c d : Char} (hquote : IsQuote quote) {rest tail : Text}
    (h : escape quote c ++ rest = escape quote d ++ tail) : c = d ∧ rest = tail := by
  have hread : (c.toNat, rest) = (d.toNat, tail) := by
    rw [← unescape_escape hquote, h, unescape_escape hquote]
  obtain ⟨hpoint, hrest⟩ := Prod.mk.inj hread
  exact ⟨Char.toNat_inj.mp hpoint, hrest⟩

/-- No notation of a character starts with the delimiter. -/
theorem exists_escape_eq_cons {quote : Char} (hquote : IsQuote quote) (c : Char) :
    ∃ d more, escape quote c = d :: more ∧ d ≠ quote := by
  have hbackslash : '\\' ≠ quote := by
    obtain rfl | rfl := hquote <;> decide
  unfold escape
  split
  · exact ⟨_, _, rfl, hbackslash⟩
  rename_i hmarked
  iterate 3
    split
    · exact ⟨_, _, rfl, hbackslash⟩
  split
  · exact ⟨c, [], rfl, fun hc => hmarked (.inl hc)⟩
  · unfold escapeCodePoint
    split
    · exact ⟨_, _, rfl, hbackslash⟩
    · split <;> exact ⟨_, _, rfl, hbackslash⟩

/-! ### Texts -/

/-- What stands between delimiters is known, and so is which delimiter closes it. -/
theorem flatMap_escape_unique {quote : Char} (hquote : IsQuote quote) {text other rest tail : Text}
    (h : text.flatMap (escape quote) ++ quote :: rest =
      other.flatMap (escape quote) ++ quote :: tail) : text = other ∧ rest = tail := by
  induction text generalizing other with
  | nil =>
      cases other with
      | nil => exact ⟨rfl, (List.cons_eq_cons.mp h).2⟩
      | cons d other =>
          obtain ⟨first, more, hescape, hfirst⟩ := exists_escape_eq_cons hquote d
          rw [List.flatMap_cons, hescape] at h
          exact absurd (List.cons_eq_cons.mp h).1.symm hfirst
  | cons c text ih =>
      cases other with
      | nil =>
          obtain ⟨first, more, hescape, hfirst⟩ := exists_escape_eq_cons hquote c
          rw [List.flatMap_cons, hescape] at h
          exact absurd (List.cons_eq_cons.mp h).1 hfirst
      | cons d other =>
          rw [List.flatMap_cons, List.flatMap_cons, List.append_assoc, List.append_assoc] at h
          obtain ⟨rfl, hmore⟩ := escape_unique hquote h
          obtain ⟨rfl, hrest⟩ := ih hmore
          exact ⟨rfl, hrest⟩

theorem quoted_append (text rest : Text) :
    quoted text ++ rest =
      quoteFor text :: (text.flatMap (escape (quoteFor text)) ++ quoteFor text :: rest) := by
  simp [quoted]

/-- A text is known from its notation, and so is where the notation ends. -/
theorem quoted_unique {text other rest tail : Text}
    (h : quoted text ++ rest = quoted other ++ tail) : text = other ∧ rest = tail := by
  rw [quoted_append, quoted_append] at h
  obtain ⟨hquote, hmore⟩ := List.cons_eq_cons.mp h
  rw [← hquote] at hmore
  exact flatMap_escape_unique (isQuote_quoteFor text) hmore

end Text
end LoxLexer
