import LoxLexer.Proofs.Editor.Designation
import LoxLexer.Proofs.Text.CodeUnits

/-!
# Diagnostics read in UTF-16

Unless they agree on something else, editors count the columns of a line in UTF-16 code units.  The
columns of a diagnostic count characters.  The two counts differ by the supplementary characters of
the line, so a diagnostic read in code units covers its character if no supplementary character
stands before it on its line, and it is none itself; otherwise it starts too early or ends inside.

* `rowBefore` — what stands on a line before a position.
* `Range.CoversUnits` — a range in code units covers the character at a position, and nothing else.
* `Workspace.validate_units` — how far the published ranges are off, and when they are right.
* `emoji_not_coversUnits` — a range that is off at both ends.
-/

namespace LoxLexer
namespace Editor

/-- What stands before a position on its line. -/
def rowBefore (source : Text) (position : Nat) : Text :=
  ((source.take position).reverse.takeWhile (· ≠ '\n')).reverse

/-- In code units, a range covers the character at a position and nothing else: it lies on the line
of the position, starts behind what stands before it there, and is as long as the character. -/
structure Range.CoversUnits (source : Text) (position : Nat) (range : Range) : Prop where
  start_line : range.start.line = Text.lineFeeds (source.take position)
  start_character : range.start.character = Text.unitLength (rowBefore source position)
  stop_line : range.stop.line = range.start.line
  stop_character : range.stop.character =
    Text.unitLength (rowBefore source position) + Text.unitLength source[position]?.toList

/-- How the range of a diagnostic stands to the code units of its line: it starts one unit short of
its character for every supplementary character before it, and it is one unit long. -/
structure Diagnostic.CountsCharacters (source : Text) (diagnostic : Diagnostic)
    (error : LexicalError) : Prop where
  start_line : diagnostic.range.start.line = Text.lineFeeds (source.take error.offset.toNat)
  stop_line : diagnostic.range.stop.line = diagnostic.range.start.line
  start_character : diagnostic.range.start.character +
      (rowBefore source error.offset.toNat).countP Text.isSupplementary =
    Text.unitLength (rowBefore source error.offset.toNat)
  stop_character : diagnostic.range.stop.character = diagnostic.range.start.character + 1
  coversUnits_iff : diagnostic.range.CoversUnits source error.offset.toNat ↔
    ∀ c ∈ rowBefore source error.offset.toNat ++ source[error.offset.toNat]?.toList,
      Text.isSupplementary c = false

variable {source : Text} {diagnostic : Diagnostic} {error : LexicalError}

theorem length_rowBefore {position : Nat} (h : position ≤ source.length) :
    (rowBefore source position).length = columnAt source position := by
  rw [rowBefore, columnAt, List.length_reverse, Nat.sub_eq_zero_of_le h, Nat.zero_add]

/-- The start of a diagnostic is the place of the offset of its error. -/
theorem Diagnostic.Designates.start_place (h : diagnostic.Designates source error) :
    diagnostic.range.start.place = placeOf source error.offset.toNat := by
  have hline := List.getElem?_eq_getElem h.start.line_lt
  rw [h.start.offset_eq, Int.toNat_natCast, placeOf_offset hline h.start.column_lt.le]

theorem Diagnostic.Designates.offset_lt (h : diagnostic.Designates source error) :
    error.offset.toNat < source.length := by
  have hcharacter := h.start.character
  rw [← Int.toNat_natCast (Place.offset _ _), ← h.start.offset_eq] at hcharacter
  exact (List.getElem?_eq_some_iff.mp hcharacter).1

/-- A diagnostic that covers its character by columns counts characters where editors count code
units. -/
theorem Diagnostic.Designates.countsCharacters (h : diagnostic.Designates source error) :
    diagnostic.CountsCharacters source error := by
  have hlt := h.offset_lt
  have hlength := length_rowBefore hlt.le
  have hcharacter : source[error.offset.toNat]?.toList = [source[error.offset.toNat]] := by
    rw [List.getElem?_eq_getElem hlt]
    rfl
  have hline : diagnostic.range.start.line = Text.lineFeeds (source.take error.offset.toNat) :=
    congrArg Place.line h.start_place
  have hcolumn : diagnostic.range.start.character = columnAt source error.offset.toNat :=
    congrArg Place.column h.start_place
  have hstop := h.stop_character
  have hunits := Text.unitLength_eq (rowBefore source error.offset.toNat)
  have hunit := Text.unitLength_eq [source[error.offset.toNat]]
  refine ⟨hline, h.stop_line, by omega, hstop, ?_⟩
  rw [hcharacter, ← Text.unitLength_eq_length_iff, Text.unitLength_append, List.length_append,
    List.length_singleton]
  constructor
  · intro hcovers
    have hends := hcovers.stop_character
    rw [hcharacter] at hends
    omega
  · intro hsame
    have hrow : Text.unitLength (rowBefore source error.offset.toNat) =
        (rowBefore source error.offset.toNat).length := by
      rw [List.length_singleton] at hunit
      omega
    refine ⟨hline, by omega, h.stop_line, ?_⟩
    rw [hcharacter]
    omega

/-- Whatever document an editor holds, there is one diagnostic for each error that the cursor
records, in the same order, on the line of the error.  Read in UTF-16 code units, which editors count
columns in, it starts short of its character by the number of supplementary characters before it on
the line, and is one unit long; so it covers its character if and only if neither a supplementary
character stands before it on the line nor it is one itself.  Nothing is published only of a document
with more characters than there are coordinates. -/
theorem Workspace.validate_units (workspace : Workspace) (uri source : Text) :
    ∃ d, (Cursor.fresh source).finish = (.ok d.tokens, d) ∧
      ((∃ diagnostics,
          (workspace.put uri source).validate uri = .ok ⟨uri, diagnostics⟩ ∧
          List.Forall₂ (Diagnostic.CountsCharacters source) diagnostics d.report.errors) ∨
        greatestCoordinate < source.length ∧
          ∃ fault, (workspace.put uri source).validate uri = .error (.misplaced fault)) := by
  obtain ⟨d, hfinish, -, hreport⟩ := Cursor.finish_alone source
  refine ⟨d, hfinish, ?_⟩
  rw [hreport, validate, text?_put]
  obtain ⟨diagnostics, hdiagnose, hdesignate⟩ | ⟨hlength, fault, hdiagnose⟩ := diagnose_cases source
  · simp only [hdiagnose]
    exact .inl ⟨diagnostics, rfl, hdesignate.imp fun _ _ h => h.countsCharacters⟩
  · simp only [hdiagnose]
    exact .inr ⟨hlength, fault, rfl⟩

/-- A supplementary character in a string, and another one where none may stand. -/
def emojiSource : Text := "\"😀\" 😀".toList

/-- What is published of it: the fifth character of the only line. -/
def emojiDiagnostic : Diagnostic where
  range := ⟨⟨0, 4, by decide, by decide⟩, ⟨0, 5, by decide, by decide⟩⟩
  message := "Unexpected character: 😀".toList
  severity := .error
  origin := "loxscan".toList

/-- The stray character starts with the sixth code unit of its line and takes two; what is published
is the fifth code unit alone. -/
theorem emoji_not_coversUnits :
    (({} : Workspace).handle (.opened "untitled:1".toList emojiSource)).toOption.map (·.2) =
        some [⟨"untitled:1".toList, [emojiDiagnostic]⟩] ∧
      (analyse emojiSource).report.errors = [(Defect.unexpected '😀').located 1 4] ∧
      Text.unitLength (rowBefore emojiSource 4) = 5 ∧
      Text.unitLength emojiSource[4]?.toList = 2 ∧
      ¬ emojiDiagnostic.range.CoversUnits emojiSource 4 := by
  refine ⟨by decide +kernel, by decide +kernel, by decide, by decide, fun hcovers => ?_⟩
  exact absurd hcovers.start_character (by decide)

end Editor
end LoxLexer
