import LoxLexer.Editor.Workspace
import LoxLexer.Proofs.Cursor.Position
import LoxLexer.Proofs.Editor.Place
import LoxLexer.Proofs.Lexing.Shift

/-!
# Diagnostics designate their characters

What an editor shows of an error is one character.  That it is the offending one takes two counts
that have nothing to do with each other: the line comes from the lexer, the column from a search
back through the document.

* `Place.Designates` — a place holds the character that an error is about.
* `Diagnostic.Designates` — a diagnostic covers that character alone.
* `diagnose_eq_ok`, `diagnose_eq_error`, `diagnose_cases` — when the errors of a document can be
  shown.
* `Workspace.validate_designates` — what is published about any document.
-/

namespace LoxLexer
namespace Editor

/-! ### Places of errors -/

/-- A place holds the character that an error is about: it lies in a line of the source, its
position is the offset of the error, and the character there is the unexpected one, or the quote
that nothing closes. -/
structure Place.Designates (source : Text) (place : Place) (error : LexicalError) : Prop where
  line_lt : place.line < (Text.split '\n' source).length
  column_lt : place.column < (Text.split '\n' source)[place.line].length
  offset_eq : error.offset = place.offset source
  character : source[place.offset source]? = some (Text.split '\n' source)[place.line][place.column]
  unexpected : error.kind = .unexpectedCharacter →
    error.message =
      "Unexpected character: ".toList ++ [(Text.split '\n' source)[place.line][place.column]]
  quote : error.kind = .unterminatedString →
    (Text.split '\n' source)[place.line][place.column] = '"'

theorem designates_placeOf {source : Text} {error : LexicalError} {position : Nat}
    (h : error.StandsAt source position) (hfeed : '\n' ∉ error.message) :
    (placeOf source position).Designates source error := by
  have hlt := h.position_lt
  have hget := List.getElem?_eq_getElem hlt
  -- a line feed would stand in none of the lines
  have hc : source[position] ≠ '\n' := by
    intro hc
    cases hkind : error.kind with
    | unexpectedCharacter =>
        obtain ⟨c, hcharacter, hmessage⟩ := h.character hkind
        rw [hget, hc] at hcharacter
        obtain rfl := Option.some.inj hcharacter
        rw [hmessage] at hfeed
        exact hfeed (List.mem_append_right _ (List.mem_singleton.mpr rfl))
    | unterminatedString =>
        have hquote := h.quote hkind
        rw [hget, hc] at hquote
        exact absurd hquote (by decide)
  obtain ⟨line, hline, hcolumn⟩ := exists_line_placeOf hget hc
  obtain ⟨hline_lt, rfl⟩ := List.getElem?_eq_some_iff.mp hline
  obtain ⟨hcolumn_lt, hcharacter⟩ := List.getElem?_eq_some_iff.mp hcolumn
  refine ⟨hline_lt, hcolumn_lt, ?_, ?_, ?_, ?_⟩
  · rw [offset_placeOf, h.offset_eq]
  · rw [offset_placeOf, hget, hcharacter]
  · intro hkind
    obtain ⟨c, hsame, hmessage⟩ := h.character hkind
    rw [hget] at hsame
    rw [hmessage, hcharacter, Option.some.inj hsame]
  · intro hkind
    have hquote := h.quote hkind
    rw [hget] at hquote
    rw [hcharacter, Option.some.inj hquote]

/-! ### Ranges that editors can exchange -/

/-- The place of a position. -/
def Position.place (position : Position) : Place := ⟨position.line, position.character⟩

/-- Both ends of the character at a place are positions. -/
def Place.IsAddressable (place : Place) : Prop :=
  place.line ≤ greatestCoordinate ∧ place.column + 1 ≤ greatestCoordinate

theorem isCoordinate_natCast {n : Nat} : IsCoordinate n ↔ n ≤ greatestCoordinate := by
  unfold IsCoordinate
  omega

theorem Position.ofInts_natCast {line character : Nat} (hline : line ≤ greatestCoordinate)
    (hcharacter : character ≤ greatestCoordinate) :
    Position.ofInts line character = .ok ⟨line, character, hline, hcharacter⟩ := by
  rw [Position.ofInts, dif_pos (isCoordinate_natCast.mpr hline),
    dif_pos (isCoordinate_natCast.mpr hcharacter)]
  rfl

theorem Position.ofInts_eq_error {line character : Int}
    (h : ¬ (IsCoordinate line ∧ IsCoordinate character)) :
    ∃ error, Position.ofInts line character = .error error := by
  unfold Position.ofInts
  split
  · rename_i hline
    rw [dif_neg fun hcharacter => h ⟨hline, hcharacter⟩]
    exact ⟨_, rfl⟩
  · exact ⟨_, rfl⟩

theorem Range.ofCharacter_natCast {place : Place} (h : place.IsAddressable) :
    ∃ range, Range.ofCharacter place.line place.column = .ok range ∧
      range.start.place = place ∧ range.stop.place = ⟨place.line, place.column + 1⟩ := by
  have hstart := Position.ofInts_natCast h.1 (Nat.le_of_succ_le h.2)
  have hstop := Position.ofInts_natCast h.1 h.2
  rw [Int.natCast_succ] at hstop
  rw [Range.ofCharacter, hstart, hstop]
  exact ⟨_, rfl, rfl, rfl⟩

theorem Range.ofCharacter_eq_error {place : Place} (h : ¬ place.IsAddressable) :
    ∃ error, Range.ofCharacter place.line place.column = .error error := by
  unfold Range.ofCharacter
  cases hstart : Position.ofInts place.line place.column with
  | error error => exact ⟨error, rfl⟩
  | ok start =>
      have hstop :
          ¬ (IsCoordinate (place.line : Int) ∧ IsCoordinate ((place.column : Int) + 1)) := by
        intro hstop
        rw [← Int.natCast_succ, isCoordinate_natCast, isCoordinate_natCast] at hstop
        exact h hstop
      obtain ⟨error, herror⟩ := Position.ofInts_eq_error hstop
      rw [herror]
      exact ⟨error, rfl⟩

/-! ### The diagnostic of an error -/

/-- A diagnostic covers the character that an error is about, and nothing else: it ends in the next
column, still within the line, and it says what the error says. -/
structure Diagnostic.Designates (source : Text) (diagnostic : Diagnostic) (error : LexicalError) :
    Prop where
  start : diagnostic.range.start.place.Designates source error
  stop_line : diagnostic.range.stop.line = diagnostic.range.start.line
  stop_character : diagnostic.range.stop.character = diagnostic.range.start.character + 1
  stop_le : diagnostic.range.stop.character ≤
    ((Text.split '\n' source).get ⟨diagnostic.range.start.line, start.line_lt⟩).length
  message_eq : diagnostic.message = error.message
  severity_eq : diagnostic.severity = .error

theorem Diagnostic.ofError_eq {source : Text} {error : LexicalError} {position : Nat}
    (h : error.StandsAt source position) :
    Diagnostic.ofError source error = do
      let range ← Range.ofCharacter (placeOf source position).line (placeOf source position).column
      return {
        range, message := error.message, severity := .error, origin := "loxscan".toList } := by
  have hline : error.line - 1 = (placeOf source position).line := by
    have hline := h.line_eq
    show error.line - 1 = Text.lineFeeds (source.take position)
    omega
  have hcolumn : column source error.offset = (placeOf source position).column := by
    rw [h.offset_eq]
    rfl
  rw [Diagnostic.ofError, hline, hcolumn]

/-- The place of the offset of an error. -/
def errorPlace (source : Text) (error : LexicalError) : Place :=
  placeOf source error.offset.toNat

theorem errorPlace_eq {source : Text} {error : LexicalError} {position : Nat}
    (h : error.StandsAt source position) : errorPlace source error = placeOf source position := by
  rw [errorPlace, h.offset_eq, Int.toNat_natCast]

theorem Diagnostic.ofError_eq_ok {source : Text} {error : LexicalError} {position : Nat}
    (h : error.StandsAt source position) (hfeed : '\n' ∉ error.message)
    (hplace : (errorPlace source error).IsAddressable) :
    ∃ diagnostic, Diagnostic.ofError source error = .ok diagnostic ∧
      diagnostic.Designates source error := by
  have hdesignates := designates_placeOf h hfeed
  rw [errorPlace_eq h] at hplace
  obtain ⟨range, hrange, hstart, hstop⟩ := Range.ofCharacter_natCast hplace
  rw [← hstart] at hdesignates hstop
  have hstop_line : range.stop.line = range.start.line := congrArg Place.line hstop
  have hstop_character : range.stop.character = range.start.character + 1 :=
    congrArg Place.column hstop
  rw [ofError_eq h, hrange]
  refine ⟨_, rfl, hdesignates, hstop_line, hstop_character, ?_, rfl, rfl⟩
  rw [hstop_character]
  exact hdesignates.column_lt

theorem Diagnostic.ofError_eq_error {source : Text} {error : LexicalError} {position : Nat}
    (h : error.StandsAt source position) (hplace : ¬ (errorPlace source error).IsAddressable) :
    ∃ fault, Diagnostic.ofError source error = .error fault := by
  rw [errorPlace_eq h] at hplace
  obtain ⟨fault, hrange⟩ := Range.ofCharacter_eq_error hplace
  rw [ofError_eq h, hrange]
  exact ⟨fault, rfl⟩

/-! ### The diagnostics of a document -/

section Lists

variable {α β ε : Type} {R : β → α → Prop} {S : α → α → Prop} {T : β → β → Prop}

theorem exists_mapM_ok {f : α → Except ε β} {inputs : List α}
    (h : ∀ x ∈ inputs, ∃ y, f x = .ok y ∧ R y x) :
    ∃ results, inputs.mapM f = .ok results ∧ List.Forall₂ R results inputs := by
  induction inputs with
  | nil => exact ⟨[], rfl, .nil⟩
  | cons x inputs ih =>
      obtain ⟨y, hy, hR⟩ := h x List.mem_cons_self
      obtain ⟨results, hresults, hall⟩ := ih fun x hx => h x (List.mem_cons_of_mem _ hx)
      refine ⟨y :: results, ?_, .cons hR hall⟩
      rw [List.mapM_cons, hy, hresults]
      rfl

/-- A failure anywhere is a failure of the whole. -/
theorem exists_mapM_error {f : α → Except ε β} {inputs : List α} {x : α} {fault : ε}
    (hx : x ∈ inputs) (hfault : f x = .error fault) :
    ∃ fault, inputs.mapM f = .error fault := by
  induction inputs with
  | nil => contradiction
  | cons first inputs ih =>
      rw [List.mapM_cons]
      cases hfirst : f first with
      | error fault => exact ⟨fault, rfl⟩
      | ok y =>
          rcases List.mem_cons.mp hx with rfl | hx
          · rw [hfirst] at hfault
            contradiction
          · obtain ⟨fault, hrest⟩ := ih hx
            rw [hrest]
            exact ⟨fault, rfl⟩

theorem pairwise_of_forall₂ (hstep : ∀ a b x y, R a x → R b y → S x y → T a b)
    {results : List β} {inputs : List α} (h : List.Forall₂ R results inputs)
    (hinputs : inputs.Pairwise S) : results.Pairwise T := by
  have hlength := h.length_eq
  rw [List.pairwise_iff_getElem] at hinputs ⊢
  intro i j hi hj hij
  exact hstep _ _ _ _ (h.get hi (hlength ▸ hi)) (h.get hj (hlength ▸ hj)) (hinputs i j _ _ hij)

end Lists

variable {source : Text}

theorem diagnose_eq_ok
    (h : ∀ error ∈ (analyse source).report.errors, (errorPlace source error).IsAddressable) :
    ∃ diagnostics, diagnose source = .ok diagnostics ∧
      List.Forall₂ (Diagnostic.Designates source) diagnostics (analyse source).report.errors := by
  apply exists_mapM_ok
  intro error herror
  obtain ⟨position, hstands⟩ := (analyse_errors_standsAt source).1 error herror
  exact Diagnostic.ofError_eq_ok hstands (lineFeed_notMem_message herror) (h error herror)

theorem diagnose_eq_error {error : LexicalError} (herror : error ∈ (analyse source).report.errors)
    (h : ¬ (errorPlace source error).IsAddressable) :
    ∃ fault, diagnose source = .error fault := by
  obtain ⟨position, hstands⟩ := (analyse_errors_standsAt source).1 error herror
  obtain ⟨fault, hfault⟩ := Diagnostic.ofError_eq_error hstands h
  exact exists_mapM_error herror hfault

/-- Only a document with more characters than there are coordinates has an error that cannot be
shown. -/
theorem lt_length_of_not_isAddressable {error : LexicalError}
    (herror : error ∈ (analyse source).report.errors)
    (h : ¬ (errorPlace source error).IsAddressable) : greatestCoordinate < source.length := by
  obtain ⟨position, hstands⟩ := (analyse_errors_standsAt source).1 error herror
  have hlt := hstands.position_lt
  have hline := line_placeOf_le source position
  have hcolumn := column_placeOf_le source position
  rw [errorPlace_eq hstands, Place.IsAddressable] at h
  omega

/-- Either every error of a document is shown, or it has more characters than there are
coordinates. -/
theorem diagnose_cases (source : Text) :
    (∃ diagnostics, diagnose source = .ok diagnostics ∧
        List.Forall₂ (Diagnostic.Designates source) diagnostics (analyse source).report.errors) ∨
      greatestCoordinate < source.length ∧ ∃ fault, diagnose source = .error fault := by
  by_cases hplaces :
      ∀ error ∈ (analyse source).report.errors, (errorPlace source error).IsAddressable
  · exact .inl (diagnose_eq_ok hplaces)
  · simp only [not_forall] at hplaces
    obtain ⟨error, herror, hplace⟩ := hplaces
    exact .inr ⟨lt_length_of_not_isAddressable herror hplace, diagnose_eq_error herror hplace⟩

/-- Diagnostics that designate errors come in the order of these. -/
theorem before_of_designates {diagnostic later : Diagnostic} {error error' : LexicalError}
    (h : diagnostic.Designates source error) (h' : later.Designates source error')
    (hlt : error.offset < error'.offset) :
    diagnostic.range.start.place.Before later.range.start.place := by
  have hplace {place : Place} {error : LexicalError} (h : place.Designates source error) :
      placeOf source (place.offset source) = place :=
    placeOf_offset (List.getElem?_eq_getElem h.line_lt) h.column_lt.le
  have hoffset := h.start.offset_eq
  have hoffset' := h'.start.offset_eq
  rw [← hplace h.start, ← hplace h'.start]
  apply placeOf_before
  omega

namespace Workspace

theorem text?_put (workspace : Workspace) (uri text : Text) :
    (workspace.put uri text).text? uri = some text :=
  List.lookup_cons_self

/-- Whatever document an editor holds, what is published is one diagnostic for each error that the
cursor records, in the same order; each covers the one character in the lines of the document that
its error is about, and they start further and further down.  Nothing is published only if one of
the errors lies beyond the last coordinate that editors can exchange; the document then has more
characters than that. -/
theorem validate_designates (workspace : Workspace) (uri source : Text) :
    ∃ d, (Cursor.fresh source).finish = (.ok d.tokens, d) ∧
      ((∃ diagnostics,
          (workspace.put uri source).validate uri = .ok ⟨uri, diagnostics⟩ ∧
          List.Forall₂ (Diagnostic.Designates source) diagnostics d.report.errors ∧
          diagnostics.Pairwise fun diagnostic later =>
            diagnostic.range.start.place.Before later.range.start.place) ∨
        greatestCoordinate < source.length ∧
          (∃ error ∈ d.report.errors, ¬ (errorPlace source error).IsAddressable) ∧
          ∃ fault, (workspace.put uri source).validate uri = .error (.misplaced fault)) := by
  obtain ⟨d, hfinish, -, herrors⟩ := Cursor.finish_fresh source {}
  have herrors : d.report.errors = (analyse source).report.errors := herrors
  refine ⟨d, hfinish, ?_⟩
  rw [herrors]
  by_cases hplaces :
      ∀ error ∈ (analyse source).report.errors, (errorPlace source error).IsAddressable
  · left
    obtain ⟨diagnostics, hdiagnose, hdesignate⟩ := diagnose_eq_ok hplaces
    refine ⟨diagnostics, ?_, hdesignate, ?_⟩
    · rw [validate, text?_put]
      simp only [hdiagnose]
    · refine pairwise_of_forall₂ ?_ hdesignate (analyse_errors_standsAt source).2
      intro diagnostic later error error' h h' hlt
      exact before_of_designates h h' hlt
  · right
    simp only [not_forall] at hplaces
    obtain ⟨error, herror, hplace⟩ := hplaces
    obtain ⟨fault, hdiagnose⟩ := diagnose_eq_error herror hplace
    refine ⟨lt_length_of_not_isAddressable herror hplace, ⟨error, herror, hplace⟩, fault, ?_⟩
    rw [validate, text?_put]
    simp only [hdiagnose]

end Workspace
end Editor
end LoxLexer
