import LoxLexer.Proofs.Editor.Place

/-!
# Offsets correspond to lines and columns

A line and a column are found apart from each other: the line by counting line feeds, the column by
a search back from the offset.  Put together they are as good as the offset, also behind the end of a
text, where the last line goes on.

* `lengthOfLines` — how far the first lines of a text reach, each with its line feed.
* `Locates` — an offset is so many characters into a line.
* `lineFeed_notMem_slice` — no line feed stands between the start of its line and an offset.
* `locates_lineColumn` — line and column locate every offset, and come in the order of the offsets.
-/

namespace LoxLexer
namespace Editor

/-- How far the first `count` lines of a text reach, each with a line feed behind it. -/
def lengthOfLines (source : Text) (count : Nat) : Nat :=
  ((Text.split '\n' source).take count).foldr (fun line length => line.length + 1 + length) 0

/-- An offset is `column` characters into a line: no line feed stands before it on that line, as far
as the text goes, and above it are the lines before. -/
structure Locates (source : Text) (offset line : Nat) (column : Int) : Prop where
  nonneg : 0 ≤ column
  line_lt : line < (Text.split '\n' source).length
  lineFeed_notMem : '\n' ∉ Text.slice source (offset - column).toNat offset
  offset_eq : (offset : Int) = column + lengthOfLines source line

theorem Place.offset_eq (source : Text) (place : Place) :
    place.offset source = lengthOfLines source place.line + place.column := by
  rw [Place.offset, lengthOfLines, List.length_flatMap, List.sum_eq_foldr, List.foldr_map]
  simp only [List.length_append, List.length_singleton]

/-- Every offset lies on a line of the text. -/
theorem line_placeOf_lt (source : Text) (position : Nat) :
    (placeOf source position).line < (Text.split '\n' source).length := by
  induction source using Text.induction_lines generalizing position with
  | last line hline =>
      rw [placeOf_last hline, Text.split_last hline]
      exact Nat.zero_lt_one
  | next line rest hline ih =>
      rw [Text.split_line hline]
      rcases le_length_or_exists_below line position with hfirst | ⟨below, rfl⟩
      · rw [placeOf_line hline rest hfirst]
        exact Nat.succ_pos _
      · rw [placeOf_next hline]
        exact Nat.succ_lt_succ (ih below)

/-- On a line that starts the text, all that stands before an offset is on that line. -/
theorem slice_firstLine {source : Text} {position : Nat} (h : '\n' ∉ source.take position) :
    Text.slice source (position - columnAt source position) position = source.take position := by
  have hcolumn : columnAt source position = position :=
    congrArg Place.column (placeOf_firstLine h)
  rw [hcolumn, Nat.sub_self, Text.slice, List.drop_zero]

/-- The lines above an offset do not matter for what stands before it on its line. -/
theorem slice_next (line rest : Text) (position : Nat) :
    Text.slice (line ++ '\n' :: rest)
        (line.length + 1 + position - columnAt rest position) (line.length + 1 + position) =
      Text.slice rest (position - columnAt rest position) position := by
  have hcolumn : columnAt rest position ≤ position := column_placeOf_le rest position
  have hstart : line.length + 1 + position - columnAt rest position =
      (line ++ ['\n']).length + (position - columnAt rest position) := by
    rw [List.length_append, List.length_singleton]
    omega
  have hline : line ++ '\n' :: rest.take position = (line ++ ['\n']) ++ rest.take position := by
    simp
  rw [Text.slice, Text.slice, take_next, hstart, hline, List.drop_length_add_append]

/-- No line feed stands between the start of its line and an offset. -/
theorem lineFeed_notMem_slice (source : Text) (position : Nat) :
    '\n' ∉ Text.slice source (position - columnAt source position) position := by
  induction source using Text.induction_lines generalizing position with
  | last line hline =>
      have htake : '\n' ∉ line.take position := fun h => hline (List.mem_of_mem_take h)
      rwa [slice_firstLine htake]
  | next line rest hline ih =>
      rcases le_length_or_exists_below line position with hfirst | ⟨below, rfl⟩
      · have htake : '\n' ∉ (line ++ '\n' :: rest).take position := by
          rw [List.take_append_of_le_length hfirst]
          exact fun h => hline (List.mem_of_mem_take h)
        rwa [slice_firstLine htake]
      · rw [columnAt_next, slice_next]
        exact ih below

/-- The place of an offset locates it. -/
theorem locates_placeOf (source : Text) (offset : Nat) :
    Locates source offset (placeOf source offset).line (placeOf source offset).column := by
  have hcolumn := column_placeOf_le source offset
  have hoffset := offset_placeOf source offset
  rw [Place.offset_eq] at hoffset
  have hstart : ((offset : Int) - (placeOf source offset).column).toNat =
      offset - columnAt source offset := by
    rw [← Int.toNat_sub]
    rfl
  refine ⟨Int.natCast_nonneg _, line_placeOf_lt source offset, ?_, by omega⟩
  rw [hstart]
  exact lineFeed_notMem_slice source offset

/-- Two offsets that a line and a column locate are one. -/
theorem Locates.unique {source : Text} {offset offset' line : Nat} {column : Int}
    (h : Locates source offset line column) (h' : Locates source offset' line column) :
    offset = offset' := by
  have heq := h.offset_eq.trans h'.offset_eq.symm
  exact Int.natCast_inj.mp heq

/-- The number of line feeds before an offset, and its column, which is never below zero, locate the
offset: the characters that the column counts hold no line feed, and the lines above make up the
rest.  So no two offsets share both, and of two offsets the later has the later line, or the later
column on the same line.  All this holds behind the end of the text as well. -/
theorem locates_lineColumn (source : Text) :
    (∀ offset : Nat, Locates source offset (Text.lineFeeds (source.take offset))
        (column source offset)) ∧
      (Function.Injective fun offset : Nat =>
        (Text.lineFeeds (source.take offset), column source offset)) ∧
      ∀ offset offset' : Nat, offset < offset' →
        Prod.Lex (· < ·) (· < ·) (Text.lineFeeds (source.take offset), column source offset)
          (Text.lineFeeds (source.take offset'), column source offset') := by
  have hlocates (offset : Nat) : Locates source offset (Text.lineFeeds (source.take offset))
      (column source offset) := locates_placeOf source offset
  refine ⟨hlocates, ?_, ?_⟩
  · intro offset offset' h
    obtain ⟨hline, hcolumn⟩ := Prod.mk.inj h
    have hlater := hlocates offset'
    rw [← hline, ← hcolumn] at hlater
    exact (hlocates offset).unique hlater
  · intro offset offset' hlt
    have hbefore : (placeOf source offset).Before (placeOf source offset') := placeOf_before hlt
    rw [Prod.lex_def]
    rcases hbefore with hline | ⟨hline, hcolumn⟩
    · exact .inl hline
    · exact .inr ⟨hline, Int.ofNat_lt.mpr hcolumn⟩

example : column "a\n\n @".toList 9 = 6 := by decide

end Editor
end LoxLexer
