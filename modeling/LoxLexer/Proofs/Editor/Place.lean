import LoxLexer.Editor.Diagnostic
import LoxLexer.Proofs.Text.Lines
import LoxLexer.Proofs.Text.Run
import Mathlib.Data.List.TakeWhile

/-!
# Places in a text

Editors look a place up by its line and its column.  The lexer counts lines while it reads, and the
column of an error is counted back from its offset; that both belong to one place is shown line by
line.

* `Place` — a line and a column, both counted from zero.
* `Place.offset` — the position that a place is, counted through the lines of the text.
* `placeOf` — the place of a position, by the line feeds before it and by `columnAt`.
* `offset_placeOf`, `placeOf_offset` — the two undo each other.
* `exists_line_placeOf` — a character stands at its place in the lines of the text.
* `placeOf_before` — places come in the order of their positions.
-/

namespace LoxLexer
namespace Editor

/-- A line and a column of a text, both counted from zero. -/
structure Place where
  line : Nat
  column : Nat
deriving DecidableEq, Repr

namespace Place

/-- In a text, one place comes before another. -/
def Before (place later : Place) : Prop :=
  place.line < later.line ∨ place.line = later.line ∧ place.column < later.column

/-- The position that a place is: behind the lines above it, each with its line feed, and as many
characters into its own line as its column says. -/
def offset (source : Text) (place : Place) : Nat :=
  (((Text.split '\n' source).take place.line).flatMap (· ++ ['\n'])).length + place.column

/-- The place in the same column, one line down. -/
def below (place : Place) : Place := ⟨place.line + 1, place.column⟩

theorem offset_firstLine (source : Text) (column : Nat) :
    offset source ⟨0, column⟩ = column := by
  rw [offset, List.take_zero, List.flatMap_nil, List.length_nil, Nat.zero_add]

theorem offset_below {line : Text} (hline : '\n' ∉ line) (rest : Text) (place : Place) :
    place.below.offset (line ++ '\n' :: rest) = line.length + 1 + place.offset rest := by
  rw [offset, offset, below, Text.split_line hline, List.take_succ_cons, List.flatMap_cons,
    List.length_append, List.length_append, List.length_singleton, Nat.add_assoc]

theorem Before.below {place later : Place} (h : place.Before later) :
    place.below.Before later.below := by
  rcases h with hline | ⟨hline, hcolumn⟩
  · left
    exact Nat.succ_lt_succ hline
  · right
    exact ⟨congrArg (· + 1) hline, hcolumn⟩

end Place

/-- The place of a position: how many line feeds stand before it, and its column. -/
def placeOf (source : Text) (position : Nat) : Place :=
  ⟨Text.lineFeeds (source.take position), columnAt source position⟩

/-! ### Line by line -/

theorem placeOf_firstLine {source : Text} {position : Nat} (h : '\n' ∉ source.take position) :
    placeOf source position = ⟨0, position⟩ := by
  have hfeeds : Text.lineFeeds (source.take position) = 0 := List.count_eq_zero.mpr h
  have hrun : ((source.take position).reverse.takeWhile (· ≠ '\n')) =
      (source.take position).reverse := by
    apply List.takeWhile_eq_self_iff.mpr
    apply Text.decide_ne_of_notMem
    rwa [List.mem_reverse]
  have hcolumn : columnAt source position = position := by
    rw [columnAt, hrun, List.length_reverse, List.length_take]
    omega
  rw [placeOf, hfeeds, hcolumn]

theorem placeOf_last {line : Text} (hline : '\n' ∉ line) (position : Nat) :
    placeOf line position = ⟨0, position⟩ :=
  placeOf_firstLine fun hmem => hline (List.mem_of_mem_take hmem)

theorem placeOf_line {line : Text} (hline : '\n' ∉ line) (rest : Text) {position : Nat}
    (h : position ≤ line.length) : placeOf (line ++ '\n' :: rest) position = ⟨0, position⟩ := by
  apply placeOf_firstLine
  rw [List.take_append_of_le_length h]
  exact fun hmem => hline (List.mem_of_mem_take hmem)

/-- A position lies in the first line, its end included, or so many places below it. -/
theorem le_length_or_exists_below (line : Text) (position : Nat) :
    position ≤ line.length ∨ ∃ below, position = line.length + 1 + below := by
  rcases Nat.lt_or_ge line.length position with hbelow | hfirst
  · right
    exact Nat.exists_eq_add_of_le hbelow
  · left
    exact hfirst

/-- What stands before a position below the first line. -/
theorem take_next (line rest : Text) (position : Nat) :
    (line ++ '\n' :: rest).take (line.length + 1 + position) =
      line ++ '\n' :: rest.take position := by
  rw [Nat.add_assoc, List.take_length_add_append, Nat.add_comm 1, List.take_succ_cons]

/-- Columns are counted back to the nearest line feed, so the lines above do not matter. -/
theorem columnAt_next (line rest : Text) (position : Nat) :
    columnAt (line ++ '\n' :: rest) (line.length + 1 + position) = columnAt rest position := by
  have hreverse : (line ++ '\n' :: rest.take position).reverse =
      (rest.take position).reverse ++ '\n' :: line.reverse := by
    simp
  have hrun : ((rest.take position).reverse ++ '\n' :: line.reverse).takeWhile (· ≠ '\n') =
      (rest.take position).reverse.takeWhile (· ≠ '\n') := by
    rw [List.takeWhile_append]
    split
    · rename_i hall
      rw [List.takeWhile_cons_of_neg (by simp), List.append_nil]
      exact ((List.takeWhile_prefix _).eq_of_length hall).symm
    · rfl
  have hbeyond : line.length + 1 + position - (line ++ '\n' :: rest).length =
      position - rest.length := by
    rw [List.length_append, List.length_cons]
    omega
  rw [columnAt, columnAt, take_next, hreverse, hrun, hbeyond]

theorem placeOf_next {line : Text} (hline : '\n' ∉ line) (rest : Text) (position : Nat) :
    placeOf (line ++ '\n' :: rest) (line.length + 1 + position) =
      (placeOf rest position).below := by
  have hfeeds : Text.lineFeeds (line ++ '\n' :: rest.take position) =
      Text.lineFeeds (rest.take position) + 1 := by
    rw [Text.lineFeeds, List.count_append, List.count_eq_zero.mpr hline, List.count_cons_self,
      Nat.zero_add]
    rfl
  rw [placeOf, take_next, hfeeds, columnAt_next]
  rfl

/-! ### Positions and places -/

variable {source : Text} {position later : Nat}

/-- The place of a position, looked up through the lines, is that position. -/
theorem offset_placeOf (source : Text) (position : Nat) :
    (placeOf source position).offset source = position := by
  induction source using Text.induction_lines generalizing position with
  | last line hline => rw [placeOf_last hline, Place.offset_firstLine]
  | next line rest hline ih =>
      rcases le_length_or_exists_below line position with hfirst | ⟨below, rfl⟩
      · rw [placeOf_line hline rest hfirst, Place.offset_firstLine]
      · rw [placeOf_next hline, Place.offset_below hline, ih]

example : placeOf "a\n\n @".toList 4 = ⟨2, 1⟩ := by decide

/-- Every place in a line, or right behind one, is the place of its position. -/
theorem placeOf_offset {place : Place} {line : Text}
    (hline : (Text.split '\n' source)[place.line]? = some line)
    (hcolumn : place.column ≤ line.length) : placeOf source (place.offset source) = place := by
  obtain ⟨number, column⟩ := place
  induction source using Text.induction_lines generalizing number with
  | last only honly =>
      rw [Text.split_last honly] at hline
      obtain rfl : number = 0 := by
        have hlt := (List.getElem?_eq_some_iff.mp hline).1
        exact Nat.lt_one_iff.mp hlt
      rw [Place.offset_firstLine, placeOf_last honly]
  | next first rest hfirst ih =>
      rw [Text.split_line hfirst] at hline
      cases number with
      | zero =>
          obtain rfl := Option.some.inj hline
          rw [Place.offset_firstLine, placeOf_line hfirst rest hcolumn]
      | succ number =>
          have hrest := ih number hline hcolumn
          show placeOf _ ((Place.below ⟨number, column⟩).offset _) = Place.below ⟨number, column⟩
          rw [Place.offset_below hfirst, placeOf_next hfirst, hrest]

/-- A character that is no line feed stands in the lines of the text at the place of its
position. -/
theorem exists_line_placeOf {c : Char} (h : source[position]? = some c) (hc : c ≠ '\n') :
    ∃ row, (Text.split '\n' source)[(placeOf source position).line]? = some row ∧
      row[(placeOf source position).column]? = some c := by
  induction source using Text.induction_lines generalizing position with
  | last line hline =>
      refine ⟨line, ?_, ?_⟩
      · rw [placeOf_last hline, Text.split_last hline]
        rfl
      · rw [placeOf_last hline, h]
  | next line rest hline ih =>
      rcases le_length_or_exists_below line position with hfirst | ⟨below, rfl⟩
      · rcases hfirst.lt_or_eq with hlt | rfl
        · refine ⟨line, ?_, ?_⟩
          · rw [placeOf_line hline rest hfirst, Text.split_line hline]
            rfl
          · rw [placeOf_line hline rest hfirst, ← h, List.getElem?_append_left hlt]
        · -- the line feed between the lines has a place, but in no line
          rw [List.getElem?_append_right (Nat.le_refl _), Nat.sub_self] at h
          exact absurd (Option.some.inj h).symm hc
      · have hrest : rest[below]? = some c := by
          rw [Nat.add_assoc, List.getElem?_append_right (by omega), Nat.add_sub_cancel_left,
            Nat.add_comm, List.getElem?_cons_succ] at h
          exact h
        rw [placeOf_next hline, Text.split_line hline]
        exact ih hrest

/-- Places come in the order of their positions. -/
theorem placeOf_before (h : position < later) :
    (placeOf source position).Before (placeOf source later) := by
  induction source using Text.induction_lines generalizing position later with
  | last line hline =>
      rw [placeOf_last hline, placeOf_last hline]
      exact .inr ⟨rfl, h⟩
  | next line rest hline ih =>
      -- in the first line the columns grow; any place below comes behind it
      rcases le_length_or_exists_below line later with hlater | ⟨later, rfl⟩
      · rw [placeOf_line hline rest hlater, placeOf_line hline rest (h.le.trans hlater)]
        exact .inr ⟨rfl, h⟩
      · rw [placeOf_next hline]
        rcases le_length_or_exists_below line position with hposition | ⟨position, rfl⟩
        · rw [placeOf_line hline rest hposition]
          exact .inl (Nat.succ_pos _)
        · rw [placeOf_next hline]
          have hlt : position < later := by omega
          exact (ih hlt).below

theorem line_placeOf_le (source : Text) (position : Nat) :
    (placeOf source position).line ≤ position := by
  have hcount : Text.lineFeeds (source.take position) ≤ (source.take position).length :=
    List.count_le_length
  have htake := List.length_take_le position source
  exact hcount.trans htake

theorem column_placeOf_le (source : Text) (position : Nat) :
    (placeOf source position).column ≤ position := by
  have hrun := ((source.take position).reverse.takeWhile_prefix (· ≠ '\n')).length_le
  rw [List.length_reverse, List.length_take] at hrun
  show columnAt source position ≤ position
  unfold columnAt
  omega

end Editor
end LoxLexer
