import LoxLexer.Number.Decimal
import LoxLexer.Number.Numeral
import LoxLexer.Proofs.Text.Run

/-!
# Plain numerals

The numerals of a source are digits, and perhaps a point between digits.  Of everything else that
`Numeral.read?` admits (white space around the numeral, a sign, an exponent, underscores, other
scripts) nothing occurs in them, so each reading step passes over them without a change.

* `isVerbatim`, `read?_verbatim` — what no reading step changes.
* `read?_eq_decimal?` — on plain text that starts with a digit only the digits are read.
* `read?_integer`, `read?_fraction` — a numeral of the source always has a value, and which.
-/

namespace LoxLexer
namespace Numeral

/-- A character that numerals of a source consist of. -/
def isPlain (c : Char) : Bool := c.isDigit || c = '.'

theorem toNat_le_of_isDigit {c : Char} (h : c.isDigit = true) : 48 ≤ c.toNat ∧ c.toNat ≤ 57 := by
  simp only [Char.isDigit, Bool.and_eq_true, decide_eq_true_eq] at h
  exact ⟨UInt32.le_iff_toNat_le.mp h.1, UInt32.le_iff_toNat_le.mp h.2⟩

theorem toNat_le_of_isPlain {c : Char} (h : isPlain c = true) : 46 ≤ c.toNat ∧ c.toNat ≤ 57 := by
  simp only [isPlain, Bool.or_eq_true, decide_eq_true_eq] at h
  rcases h with h | rfl
  · have hbounds := toNat_le_of_isDigit h
    omega
  · decide

theorem isPlain_of_isDigit {c : Char} (h : c.isDigit = true) : isPlain c = true := by
  simp [isPlain, h]

/-! ### What is read as it is -/

/-- A character that is read as it is: visible, of ASCII, and no underscore. -/
def isVerbatim (c : Char) : Bool := 0x20 < c.toNat && c.toNat < 0x80 && c ≠ '_'

theorem isVerbatim_of_isPlain {c : Char} (h : isPlain c = true) : isVerbatim c = true := by
  have hbounds := toNat_le_of_isPlain h
  have hunderscore : c ≠ '_' := by
    rintro rfl
    exact absurd h (by decide)
  have hvisible : 0x20 < c.toNat := by omega
  have hascii : c.toNat < 0x80 := by omega
  simp [isVerbatim, hvisible, hascii, hunderscore]

theorem asciiChar?_verbatim {c : Char} (h : isVerbatim c = true) : asciiChar? c = some c := by
  simp only [isVerbatim, Bool.and_eq_true, decide_eq_true_eq] at h
  rw [asciiChar?, if_pos h.1.2]

theorem ascii?_verbatim {text : Text} (h : ∀ c ∈ text, isVerbatim c = true) :
    ascii? text = some text := by
  unfold ascii?
  induction text with
  | nil => rfl
  | cons c text ih =>
      obtain ⟨hc, htext⟩ := List.forall_mem_cons.mp h
      simp [List.mapM_cons, asciiChar?_verbatim hc, ih htext]

theorem isBlank_verbatim {c : Char} (h : isVerbatim c = true) : isBlank c = false := by
  simp only [isVerbatim, Bool.and_eq_true, decide_eq_true_eq] at h
  have hspace : c ≠ ' ' := by
    rintro rfl
    exact absurd h.1.1 (by decide)
  have hcontrol : ¬ c.toNat ≤ 0x0d := by omega
  simp [isBlank, hspace, hcontrol]

theorem dropWhile_isBlank_verbatim {text : Text} (h : ∀ c ∈ text, isVerbatim c = true) :
    text.dropWhile isBlank = text := by
  cases text with
  | nil => rfl
  | cons c text => simp [isBlank_verbatim (h c List.mem_cons_self)]

theorem trim_verbatim {text : Text} (h : ∀ c ∈ text, isVerbatim c = true) : trim text = text := by
  have hreverse : ∀ c ∈ text.reverse, isVerbatim c = true := by
    intro c hc
    exact h c (List.mem_reverse.mp hc)
  rw [trim, dropWhile_isBlank_verbatim h, dropWhile_isBlank_verbatim hreverse, List.reverse_reverse]

theorem withoutUnderscores?_verbatim {text : Text} (h : ∀ c ∈ text, isVerbatim c = true)
    (previous : Option Char) : withoutUnderscores? previous text = some text := by
  induction text generalizing previous with
  | nil => rfl
  | cons c text ih =>
      obtain ⟨hc, htext⟩ := List.forall_mem_cons.mp h
      have hunderscore : c ≠ '_' := by
        rintro rfl
        exact absurd hc (by decide)
      rw [withoutUnderscores?]
      · simp [ih htext]
      · exact hunderscore

/-- Nothing is done to such a text before it is taken apart. -/
theorem read?_verbatim {text : Text} (h : ∀ c ∈ text, isVerbatim c = true) :
    read? text = plain? text := by
  rw [read?, ascii?_verbatim h, Option.bind_some, trim_verbatim h, withoutUnderscores?_verbatim h,
    Option.bind_some]

/-! ### Digits at the front -/

theorem splitSign_digit {c : Char} (h : c.isDigit = true) (rest : Text) :
    splitSign (c :: rest) = (false, c :: rest) := by
  have hbounds := toNat_le_of_isDigit h
  unfold splitSign
  split
  · rename_i heq
    cases heq
    exact absurd hbounds (by decide)
  · rename_i heq
    cases heq
    exact absurd hbounds (by decide)
  · rfl

/-- A digit has no lower case of its own. -/
theorem toLower_digit {c : Char} (h : c.isDigit = true) : c.toLower = c := by
  have hbounds := toNat_le_of_isDigit h
  have hnot : ¬ ('A'.val ≤ c.val ∧ c.val ≤ 'Z'.val) := by
    rintro ⟨hupper, -⟩
    have hle : 65 ≤ c.toNat := UInt32.le_iff_toNat_le.mp hupper
    omega
  exact dif_neg hnot

/-- Digits, behind a minus sign or not, spell no word. -/
theorem plain?_signed (negative : Bool) {c : Char} (h : c.isDigit = true) (rest : Text) :
    plain? (Binary64.signText negative ++ c :: rest) = decimal? negative (c :: rest) := by
  have hi : c ≠ 'i' := by
    rintro rfl
    exact absurd h (by decide)
  have hn : c ≠ 'n' := by
    rintro rfl
    exact absurd h (by decide)
  cases negative with
  | false => simp [plain?, Binary64.signText, splitSign_digit h, toLower_digit h, hi, hn]
  | true => simp [plain?, Binary64.signText, splitSign, toLower_digit h, hi, hn]

/-- Of a plain text that starts with a digit only the digits are read. -/
theorem read?_eq_decimal? {c : Char} {rest : Text} (hc : c.isDigit = true)
    (hrest : ∀ d ∈ rest, isPlain d = true) :
    read? (c :: rest) = decimal? false (c :: rest) := by
  have htext : ∀ d ∈ c :: rest, isPlain d = true :=
    List.forall_mem_cons.mpr ⟨isPlain_of_isDigit hc, hrest⟩
  rw [read?_verbatim fun d hd => isVerbatim_of_isPlain (htext d hd)]
  exact plain?_signed false hc rest

/-! ### The values of numerals -/

/-- Digits alone denote themselves. -/
theorem read?_integer {c : Char} {digits : Text} (hc : c.isDigit = true)
    (hdigits : ∀ d ∈ digits, d.isDigit = true) :
    read? (c :: digits) =
      some (Binary64.ofScientific false (digitsValue (c :: digits)) 0) := by
  have hall : ∀ d ∈ c :: digits, d.isDigit = true := List.forall_mem_cons.mpr ⟨hc, hdigits⟩
  have hwhole := Text.takeWhile_run hall (Text.stops_nil Char.isDigit)
  have hrest := Text.dropWhile_run hall (Text.stops_nil Char.isDigit)
  rw [List.append_nil] at hwhole hrest
  rw [read?_eq_decimal? hc fun d hd => isPlain_of_isDigit (hdigits d hd)]
  simp [decimal?, hwhole, hrest, exponent?]

/-- With a point between them, digits denote the number without the point, scaled down by the
number of decimals. -/
theorem read?_fraction {c d : Char} {digits decimals : Text} (hc : c.isDigit = true)
    (hdigits : ∀ d ∈ digits, d.isDigit = true) (hd : d.isDigit = true)
    (hdecimals : ∀ d ∈ decimals, d.isDigit = true) :
    read? (c :: (digits ++ '.' :: d :: decimals)) =
      some (Binary64.ofScientific false (digitsValue (c :: digits ++ d :: decimals))
        (0 - ((d :: decimals).length : Int))) := by
  have hall : ∀ e ∈ c :: digits, e.isDigit = true := List.forall_mem_cons.mpr ⟨hc, hdigits⟩
  have hmore : ∀ e ∈ d :: decimals, e.isDigit = true := List.forall_mem_cons.mpr ⟨hd, hdecimals⟩
  have hplain : ∀ e ∈ digits ++ '.' :: d :: decimals, isPlain e = true := by
    intro e he
    rcases List.mem_append.mp he with he | he
    · exact isPlain_of_isDigit (hdigits e he)
    rcases List.mem_cons.mp he with rfl | he
    · decide
    · exact isPlain_of_isDigit (hmore e he)
  have hpoint : Text.Stops Char.isDigit ('.' :: d :: decimals) := Text.stops_cons (by decide) _
  have hwhole := Text.takeWhile_run hall hpoint
  have hrest := Text.dropWhile_run hall hpoint
  have hfraction := Text.takeWhile_run hmore (Text.stops_nil Char.isDigit)
  have hend := Text.dropWhile_run hmore (Text.stops_nil Char.isDigit)
  rw [List.append_nil] at hfraction hend
  rw [List.cons_append] at hwhole hrest
  rw [read?_eq_decimal? hc hplain]
  simp [decimal?, hwhole, hrest, hfraction, hend, exponent?]

end Numeral
end LoxLexer
