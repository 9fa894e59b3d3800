import LoxLexer.Json
import LoxLexer.Proofs.Json.Grammar
import LoxLexer.Proofs.Text.Hexadecimal

/-!
# Strings as they are written

Every string is written in ASCII, in a way that denotes its code points again: a character beyond
the Basic Multilingual Plane is escaped as a surrogate pair, which is put together again, and no
other two escapes are taken for a pair.

* `Json.characters_escape` — what a character is written as denotes its UTF-16 code units.
* `Json.joinPairs_flatMap_units` — code units put together are the code points again.
* `Json.quoted_quoted` — the notation of a string denotes the string.
* `Json.isAscii_of_mem_quoted` — it is ASCII.
-/

namespace LoxLexer

namespace Json

/-! ### Characters -/

/-- The UTF-16 code units of a character. -/
def units (c : Char) : List Nat :=
  if c.toNat < 0x10000 then [c.toNat]
  else [0xd800 + (c.toNat - 0x10000) / 0x400, 0xdc00 + (c.toNat - 0x10000) % 0x400]

theorem Character.characters {text : Text} {unit : Nat} (h : Character text unit) :
    Characters text [unit] := by
  have hone := Characters.cons h .nil
  rwa [List.append_nil] at hone

theorem Characters.append {text more : Text} {us vs : List Nat} (h : Characters text us)
    (hmore : Characters more vs) : Characters (text ++ more) (us ++ vs) := by
  induction h with
  | nil => exact hmore
  | cons hfirst _ ih =>
      rw [List.append_assoc]
      exact .cons hfirst ih

theorem character_escapeUnit {unit : Nat} (h : unit < 0x10000) :
    Character (escapeUnit unit) unit := by
  have hdigits : ∀ c ∈ Text.hex 4 unit, Text.isHexDigit c = true := by
    intro c hc
    obtain ⟨n, rfl⟩ := Text.exists_of_mem_hex hc
    exact (Text.hexDigit_spec n).1
  have hunit := Character.unit (Text.length_hex 4 unit) hdigits
  rwa [Text.valueInBase_hex h] at hunit

/-- The ways in which characters are written. -/
inductive Escaped (c : Char) : Text → Prop
  | shorthand {d : Char} (h : (d, c) ∈ shorthands) : Escaped c ['\\', d]
  | plain (hcontrol : 0x20 ≤ c.toNat) (hlt : c.toNat < 0x7f) (hquote : c ≠ '"')
      (hbackslash : c ≠ '\\') : Escaped c [c]
  | basic (h : c.toNat < 0x10000) : Escaped c (escapeUnit c.toNat)
  | pair (h : 0x10000 ≤ c.toNat) :
      Escaped c (escapeUnit (0xd800 + (c.toNat - 0x10000) / 0x400) ++
        escapeUnit (0xdc00 + (c.toNat - 0x10000) % 0x400))

theorem escaped_escape (c : Char) : Escaped c (escape c) := by
  unfold escape
  by_cases hquote : c = '"'
  · rw [if_pos hquote, hquote]
    exact .shorthand (by decide)
  rw [if_neg hquote]
  by_cases hbackslash : c = '\\'
  · rw [if_pos hbackslash, hbackslash]
    exact .shorthand (by decide)
  rw [if_neg hbackslash]
  -- the controls with a shorthand of their own
  iterate 5
    split
    · subst c
      exact .shorthand (by decide)
  split
  · rename_i hplain
    exact .plain hplain.1 hplain.2 hquote hbackslash
  split
  · rename_i hbasic
    exact .basic hbasic
  · rename_i hbasic
    exact .pair (by omega)

/-- What a character is written as denotes its code units. -/
theorem characters_escape (c : Char) : Characters (escape c) (units c) := by
  have hlt : c.toNat < 0x110000 := by
    have hvalid : c.toNat < 0xd800 ∨ 0xdfff < c.toNat ∧ c.toNat < 0x110000 := c.valid
    omega
  have hescaped := escaped_escape c
  generalize escape c = text at hescaped
  unfold units
  cases hescaped with
  | shorthand h =>
      have hall : ∀ entry ∈ shorthands, entry.2.toNat < 0x10000 := by decide
      rw [if_pos (hall _ h)]
      exact (Character.shorthand h).characters
  | plain hcontrol hlt hquote hbackslash =>
      rw [if_pos (by omega)]
      exact (Character.plain hcontrol hquote hbackslash).characters
  | basic h =>
      rw [if_pos h]
      exact (character_escapeUnit h).characters
  | pair h =>
      rw [if_neg (by omega)]
      exact .cons (character_escapeUnit (by omega)) (character_escapeUnit (by omega)).characters

/-! ### Code points -/

theorem joinPairs_cons {unit : Nat} (h : isHigh unit = false) (rest : List Nat) :
    joinPairs (unit :: rest) = unit :: joinPairs rest := by
  cases rest with
  | nil => rfl
  | cons next rest => simp [joinPairs, h]

theorem joinPairs_pair {high low : Nat} (hhigh : isHigh high = true) (hlow : isLow low = true)
    (rest : List Nat) :
    joinPairs (high :: low :: rest) =
      (0x10000 + (high - 0xd800) * 0x400 + (low - 0xdc00)) :: joinPairs rest := by
  simp [joinPairs, hhigh, hlow]

/-- The code units of a text, put together, are its code points. -/
theorem joinPairs_flatMap_units (text : Text) :
    joinPairs (text.flatMap units) = text.map Char.toNat := by
  -- no character is a surrogate, so a high one comes from a pair and its low one is next
  induction text with
  | nil => rfl
  | cons c text ih =>
      have hvalid : c.toNat < 0xd800 ∨ 0xdfff < c.toNat ∧ c.toNat < 0x110000 := c.valid
      rw [List.flatMap_cons, List.map_cons, units]
      by_cases hbasic : c.toNat < 0x10000
      · have hhigh : isHigh c.toNat = false := by
          simp only [isHigh, Bool.and_eq_false_iff, decide_eq_false_iff_not]
          omega
        rw [if_pos hbasic, List.singleton_append, joinPairs_cons hhigh, ih]
      · have hhigh : isHigh (0xd800 + (c.toNat - 0x10000) / 0x400) = true := by
          simp only [isHigh, Bool.and_eq_true, decide_eq_true_iff]
          omega
        have hlow : isLow (0xdc00 + (c.toNat - 0x10000) % 0x400) = true := by
          simp only [isLow, Bool.and_eq_true, decide_eq_true_iff]
          omega
        have hpoint (point : Nat) (hpoint : 0x10000 ≤ point) :
            0x10000 + (0xd800 + (point - 0x10000) / 0x400 - 0xd800) * 0x400 +
              (0xdc00 + (point - 0x10000) % 0x400 - 0xdc00) = point := by omega
        rw [if_neg hbasic, List.cons_append, List.cons_append, List.nil_append,
          joinPairs_pair hhigh hlow, ih, hpoint c.toNat (by omega)]

example : joinPairs [0xd834, 0xdd1e, 0x41, 0xd834] = [0x1d11e, 0x41, 0xd834] := by decide

/-! ### Strings -/

/-- The notation of a string denotes the string. -/
theorem quoted_quoted (text : Text) : Quoted (quoted text) (text.map Char.toNat) := by
  have hbody : Characters (text.flatMap escape) (text.flatMap units) := by
    induction text with
    | nil => exact .nil
    | cons c text ih => exact (characters_escape c).append ih
  rw [← joinPairs_flatMap_units]
  exact .intro hbody

theorem isAscii_of_mem_escapeUnit {unit : Nat} {c : Char} (h : c ∈ escapeUnit unit) :
    isAscii c = true := by
  simp only [escapeUnit, List.mem_cons] at h
  obtain rfl | rfl | hdigit := h
  · decide
  · decide
  · obtain ⟨n, rfl⟩ := Text.exists_of_mem_hex hdigit
    exact (Text.hexDigit_spec n).2.2

theorem isAscii_of_mem_escape {c d : Char} (h : d ∈ escape c) : isAscii d = true := by
  have hescaped := escaped_escape c
  generalize escape c = text at hescaped h
  cases hescaped with
  | @shorthand e hmem =>
      have hall : ∀ entry ∈ shorthands, isAscii entry.1 = true := by decide
      obtain rfl | hd := List.mem_cons.mp h
      · rfl
      · rw [List.mem_singleton.mp hd]
        exact hall _ hmem
  | plain _ hlt =>
      obtain rfl := List.mem_singleton.mp h
      exact decide_eq_true (Nat.lt_trans hlt (by decide))
  | basic => exact isAscii_of_mem_escapeUnit h
  | pair => exact (List.mem_append.mp h).elim isAscii_of_mem_escapeUnit isAscii_of_mem_escapeUnit

/-- Strings are written in ASCII. -/
theorem isAscii_of_mem_quoted {text : Text} {c : Char} (h : c ∈ quoted text) :
    isAscii c = true := by
  simp only [quoted, List.cons_append, List.mem_cons, List.mem_append, List.not_mem_nil,
    or_false] at h
  obtain rfl | hbody | rfl := h
  · decide
  · obtain ⟨d, -, hd⟩ := List.mem_flatMap.mp hbody
    exact isAscii_of_mem_escape hd
  · decide

end Json
end LoxLexer
