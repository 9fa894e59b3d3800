import LoxLexer.Proofs.Cursor.Position
import LoxLexer.Proofs.Lexing.LineFeed
import LoxLexer.Proofs.Text.Lines
import LoxLexer.Text.LineEndings

/-!
# Carriage returns before line feeds

A line may end with a line feed, or with a carriage return and a line feed.  To the lexer a carriage
return is a blank, which it may meet anywhere: between lexemes, inside a comment, or inside a string
that the line feed leaves unclosed.  Before a line feed it leaves no trace in any of these places.

* `analyse_append_blank` — a blank at the end of a text changes nothing about it.
* `Text.withReturns` — a text with a carriage return before every line feed.
* `Cursor.finish_withReturns` — the same tokens and errors, these further on by the line feeds
  before them.
* `Text.PairsReturns`, `analyse_unifyLineEndings` — a text in which every carriage return stands
  before a line feed has the tokens and the remarks of the text without its carriage returns.
-/

namespace LoxLexer

/-! ### A blank at the end -/

section Blank

variable {c : Char} (hc : isBlank c = true)

include hc

/-- Before a blank at the end the same lexeme stands at the front, unless it is a comment or an open
string that goes to the end: these take the blank in. -/
theorem Front.append_blank {text rest : Text} {lexeme : Lexeme} (h : Front text lexeme rest) :
    Front (text ++ [c]) lexeme (rest ++ [c]) ∨
      rest = [] ∧ (lexeme.shape = .comment ∨ lexeme.shape = .unclosed) ∧
        Front (text ++ [c]) ⟨lexeme.shape, lexeme.text ++ [c]⟩ [] := by
  have hwhite : isWhiteSpace c = true := by rw [isWhiteSpace, hc, Bool.true_or]
  have hlonger {property : Char → Bool} {body : Text} (hbody : ∀ d ∈ body, property d = true)
      (hblanks : ∀ d ∈ [' ', '\t', '\r'], property d = true) :
      ∀ d ∈ body ++ [c], property d = true := by
    have hblank : property c = true := hblanks c (mem_of_isBlank hc)
    exact List.forall_mem_append.mpr ⟨hbody, List.forall_mem_singleton.mpr hblank⟩
  have hsame (hcomment : lexeme.shape = .comment → Text.Stops isCommentChar (rest ++ [c]))
      (hunclosed : lexeme.shape = .unclosed → '\n' ∈ lexeme.text) :
      Front (text ++ [c]) lexeme (rest ++ [c]) := by
    rw [h.text_append, List.append_assoc]
    exact h.withRest (.append rest hwhite []) hcomment fun hshape => .inl (hunclosed hshape)
  cases h with
  | @comment body rest hbody hrest =>
      cases rest with
      | nil =>
          have hfront := Front.comment (hlonger hbody (Text.forall_mem_of_all (by decide)))
            (Text.stops_nil isCommentChar)
          right
          simpa using hfront
      | cons d rest => exact .inl (hsame (fun _ => Text.stops_cons (hrest d rfl) _) (by simp))
  | unclosed hbody => exact .inl (hsame (by simp) fun _ => by simp)
  | unclosedAtEnd hbody =>
      have hfront := Front.unclosedAtEnd (hlonger hbody (Text.forall_mem_of_all (by decide)))
      right
      simpa using hfront
  | _ => exact .inl (hsame (by simp) (by simp))

/-- A blank at the end adds neither token nor error. -/
theorem scannedOf_errorsOf_append_blank (text : Text) (line : Int) (offset : Nat) :
    scannedOf line (lexemes (text ++ [c])) = scannedOf line (lexemes text) ∧
      errorsOf line offset (lexemes (text ++ [c])) = errorsOf line offset (lexemes text) := by
  induction text using Front.induction generalizing line offset with
  | nil =>
      have hblank : lexemes [c] = ⟨.blank, [c]⟩ :: lexemes [] := (Front.blank hc).lexemes_eq
      rw [List.nil_append, hblank, lexemes_nil]
      exact ⟨rfl, rfl⟩
  | front text lexeme rest hfront ih =>
      rw [hfront.lexemes_eq]
      rcases hfront.append_blank hc with hsame | ⟨rfl, hshape, hjoined⟩
      · obtain ⟨hscanned, herrors⟩ :=
          ih (line + lexeme.text.lineFeeds) (offset + lexeme.text.length)
        rw [hsame.lexemes_eq, scannedOf, scannedOf, errorsOf, errorsOf, hscanned, herrors]
        exact ⟨rfl, rfl⟩
      · -- neither is a token, and an open string is an error where it starts
        obtain ⟨shape, body⟩ := lexeme
        rw [hjoined.lexemes_eq, lexemes_nil]
        rcases hshape with rfl | rfl <;> exact ⟨rfl, rfl⟩

/-- A blank at the end of a text changes nothing about it. -/
theorem analyse_append_blank (text : Text) : analyse (text ++ [c]) = analyse text := by
  have hfeeds : Text.lineFeeds (text ++ [c]) = Text.lineFeeds text := by
    have hnot : '\n' ∉ [c] := by
      rw [List.mem_singleton]
      rintro rfl
      contradiction
    rw [Text.lineFeeds_append, Text.lineFeeds, Text.lineFeeds, List.count_eq_zero.mpr hnot,
      Nat.add_zero]
  obtain ⟨hscanned, herrors⟩ := scannedOf_errorsOf_append_blank hc text 1 0
  have htokens : tokensOf 1 (lexemes (text ++ [c])) = tokensOf 1 (lexemes text) := by
    rw [tokensOf_eq, tokensOf_eq, hscanned, textOf_lexemes, textOf_lexemes, hfeeds]
  rw [analyse, analyse, htokens, herrors]

end Blank

/-! ### A carriage return before every line feed -/

/-- The text with a carriage return before every line feed. -/
def Text.withReturns (text : Text) : Text :=
  text.flatMap fun c => if c = '\n' then ['\r', '\n'] else [c]

namespace Text

theorem withReturns_last {line : Text} (hline : '\n' ∉ line) : withReturns line = line := by
  have hsame : ∀ c ∈ line, (if c = '\n' then ['\r', '\n'] else [c]) = [c] := by
    intro c hc
    rw [if_neg]
    rintro rfl
    exact hline hc
  rw [withReturns, List.flatMap_congr hsame, List.flatMap_singleton']

theorem withReturns_next {line : Text} (hline : '\n' ∉ line) (rest : Text) :
    withReturns (line ++ '\n' :: rest) = line ++ ['\r'] ++ '\n' :: withReturns rest := by
  have hfirst := withReturns_last hline
  rw [withReturns] at hfirst ⊢
  rw [List.flatMap_append, List.flatMap_cons, hfirst, if_pos rfl, List.append_assoc]
  rfl

end Text

/-- The error where it stands once every line feed before it takes two characters. -/
def LexicalError.behindReturns (source : Text) (error : LexicalError) : LexicalError :=
  { error with offset := error.offset + Text.lineFeeds (source.take error.offset.toNat) }

/-- The errors of the last line stand where they stood, and so do those of any other line in the
text from there on. -/
theorem behindReturns_of_mem_errors {line : Text} (hline : '\n' ∉ line) (more : Text)
    {error : LexicalError} (h : error ∈ (analyse line).report.errors) :
    error.behindReturns (line ++ more) = error := by
  obtain ⟨position, hstands⟩ := (analyse_errors_standsAt line).1 error h
  have hnot : '\n' ∉ (line ++ more).take position := by
    rw [List.take_append_of_le_length (Nat.le_of_lt hstands.position_lt)]
    exact fun hmem => hline (List.mem_of_mem_take hmem)
  rw [LexicalError.behindReturns, hstands.offset_eq, Int.toNat_natCast, Text.lineFeeds,
    List.count_eq_zero.mpr hnot, ← hstands.offset_eq, Int.natCast_zero, Int.add_zero]

/-- An error behind the first line feed moves by that one and by those in its own text. -/
theorem behindReturns_later {line rest : Text} (hline : '\n' ∉ line) {error : LexicalError}
    (h : error ∈ (analyse rest).report.errors) (lines : Int) :
    (error.later lines (line.length + 1)).behindReturns (line ++ '\n' :: rest) =
      (error.behindReturns rest).later lines (line.length + 2) := by
  obtain ⟨position, hstands⟩ := (analyse_errors_standsAt rest).1 error h
  have hoffset : (error.offset + (line.length + 1 : Nat)).toNat = line.length + (1 + position) := by
    rw [hstands.offset_eq]
    omega
  have hfeeds : Text.lineFeeds ((line ++ '\n' :: rest).take (line.length + (1 + position))) =
      Text.lineFeeds (rest.take position) + 1 := by
    rw [List.take_length_add_append, Nat.add_comm 1, List.take_succ_cons, Text.lineFeeds,
      List.count_append, List.count_eq_zero.mpr hline, List.count_cons_self, Nat.zero_add]
    rfl
  have hown : error.offset.toNat = position := by rw [hstands.offset_eq, Int.toNat_natCast]
  simp only [LexicalError.behindReturns, LexicalError.later, hoffset, hfeeds, hown]
  congr 1
  omega

/-- Carriage returns before the line feeds of a source change no token, and move its errors only. -/
theorem analyse_withReturns (source : Text) :
    tokens source.withReturns = tokens source ∧
      (analyse source.withReturns).report.errors =
        (analyse source).report.errors.map (LexicalError.behindReturns source) := by
  induction source using Text.induction_lines with
  | last line hline =>
      rw [Text.withReturns_last hline]
      refine ⟨rfl, (map_eq_self fun error herror => ?_).symm⟩
      have hsame := behindReturns_of_mem_errors hline [] herror
      rwa [List.append_nil] at hsame
  | next line rest hline ih =>
      obtain ⟨htokens, herrors⟩ := ih
      have hblank : analyse (line ++ ['\r']) = analyse line := analyse_append_blank (by decide) line
      obtain ⟨scanned, hplain, hreturned, hreturnedErrors⟩ :=
        analyse_lineFeed_of_eq hblank rest rest.withReturns
      obtain ⟨-, -, -, hplainErrors⟩ := analyse_lineFeed line rest
      have hlength : (line ++ ['\r']).length + 1 = line.length + 2 := by
        rw [List.length_append, List.length_singleton]
      rw [Text.withReturns_next hline]
      constructor
      · rw [hreturned, hplain, htokens]
      · rw [hreturnedErrors, hplainErrors, herrors, hlength, List.map_append, List.map_map,
          List.map_map]
        have hbefore : (analyse line).report.errors.map
            (LexicalError.behindReturns (line ++ '\n' :: rest)) = (analyse line).report.errors :=
          map_eq_self fun error herror => behindReturns_of_mem_errors hline _ herror
        rw [hbefore]
        congr 1
        exact List.map_congr_left fun error herror =>
          (behindReturns_later hline herror _).symm

namespace Cursor

/-- A cursor finds the same in a source whose lines end with a carriage return and a line feed as in
one whose lines end with a line feed alone, whether or not it holds other carriage returns: the same
tokens on the same lines, and the same errors, each further on by as many characters as there are
line feeds before it. -/
theorem finish_withReturns (source : Text) :
    ∃ plain returned,
      (fresh source).finish = (.ok plain.tokens, plain) ∧
      (fresh source.withReturns).finish = (.ok returned.tokens, returned) ∧
      returned.tokens = plain.tokens ∧
      returned.report.errors = plain.report.errors.map fun error =>
        { error with
          offset := error.offset + Text.lineFeeds (source.take error.offset.toNat) } := by
  obtain ⟨plain, hplain, hplainTokens, hplainErrors⟩ := finish_fresh source {}
  obtain ⟨returned, hreturned, hreturnedTokens, hreturnedErrors⟩ :=
    finish_fresh source.withReturns {}
  obtain ⟨htokens, herrors⟩ := analyse_withReturns source
  refine ⟨plain, returned, hplain, hreturned, ?_, ?_⟩
  · rw [hreturnedTokens, hplainTokens]
    exact htokens
  · rw [hreturnedErrors, hplainErrors]
    exact herrors

end Cursor

/-! ### Carriage returns that stand before line feeds only -/

namespace Text

/-- Every carriage return of the text stands before a line feed. -/
def PairsReturns (text : Text) : Prop :=
  ∀ i < text.length, text[i]? = some '\r' → text[i + 1]? = some '\n'

instance (text : Text) : Decidable text.PairsReturns :=
  inferInstanceAs (Decidable (∀ i < text.length, text[i]? = some '\r' → text[i + 1]? = some '\n'))

namespace PairsReturns

theorem head?_eq {before after : Text} (h : PairsReturns (before ++ '\r' :: after)) :
    after.head? = some '\n' := by
  have hnext := h before.length (by simp) (by simp)
  rw [List.getElem?_append_right (Nat.le_add_right _ 1), Nat.add_sub_cancel_left] at hnext
  rw [List.head?_eq_getElem?]
  exact hnext

theorem behind {before after : Text} (h : PairsReturns (before ++ after)) : after.PairsReturns := by
  intro i hi hreturn
  have hnext := h (before.length + i) (by simp [hi])
  rw [Nat.add_assoc, List.getElem?_append_right (Nat.le_add_right _ _),
    List.getElem?_append_right (Nat.le_add_right _ _), Nat.add_sub_cancel_left,
    Nat.add_sub_cancel_left] at hnext
  exact hnext hreturn

theorem behind_line {line rest : Text} (h : PairsReturns (line ++ '\n' :: rest)) :
    rest.PairsReturns := by
  rw [List.append_cons] at h
  exact h.behind

theorem last {line : Text} (h : line.PairsReturns) (hline : '\n' ∉ line) : '\r' ∉ line := by
  intro hmem
  obtain ⟨before, after, rfl⟩ := List.append_of_mem hmem
  have hhead := List.mem_of_head? h.head?_eq
  exact hline (List.mem_append_right _ (List.mem_cons_of_mem _ hhead))

/-- A line has no carriage return but one at its end. -/
theorem next {line rest : Text} (h : PairsReturns (line ++ '\n' :: rest)) (hline : '\n' ∉ line) :
    ∃ body, '\r' ∉ body ∧ (line = body ∨ line = body ++ ['\r']) := by
  by_cases hreturn : '\r' ∈ line
  · obtain ⟨body, after, rfl, hbody⟩ := List.eq_append_cons_of_mem hreturn
    rw [List.append_assoc, List.cons_append] at h
    cases after with
    | nil => exact ⟨body, hbody, .inr rfl⟩
    | cons c after =>
        obtain rfl : c = '\n' := Option.some.inj h.head?_eq
        simp at hline
  · exact ⟨line, hreturn, .inl rfl⟩

end PairsReturns

theorem unifyLineEndings_append {line : Text} (hline : '\r' ∉ line) (rest : Text) :
    unifyLineEndings (line ++ rest) = line ++ unifyLineEndings rest := by
  induction line with
  | nil => rfl
  | cons c line ih =>
      rw [List.mem_cons, not_or] at hline
      have hc : c ≠ '\r' := Ne.symm hline.1
      rw [List.cons_append, unifyLineEndings.eq_def]
      split
      · contradiction
      · rename_i htext
        exact absurd (List.cons.inj htext).1 hc
      · rename_i htext
        obtain ⟨rfl, rfl⟩ := List.cons.inj htext
        rw [if_neg hc, ih hline.2, List.cons_append]

end Text

/-- Only the end of a line changes with its line ending, and that end scans alike. -/
theorem Text.PairsReturns.exists_body {line rest : Text} (h : PairsReturns (line ++ '\n' :: rest))
    (hline : '\n' ∉ line) :
    ∃ body, analyse line = analyse body ∧
      unifyLineEndings (line ++ '\n' :: rest) = body ++ '\n' :: unifyLineEndings rest := by
  obtain ⟨body, hbody, rfl | rfl⟩ := h.next hline
  · exact ⟨line, rfl, unifyLineEndings_append hbody _⟩
  · refine ⟨body, analyse_append_blank (by decide) body, ?_⟩
    rw [List.append_assoc, unifyLineEndings_append hbody]
    rfl

/-- What an error says and on which line, wherever on the line it stands. -/
def LexicalError.remark (error : LexicalError) : Text × Int := (error.message, error.line)

/-- Offsets have no part in what is remarked. -/
theorem map_remark_later (errors : List LexicalError) (lines : Int) (offset : Nat) :
    (errors.map (LexicalError.later lines offset)).map LexicalError.remark =
      (errors.map LexicalError.remark).map (Prod.map id (· + lines)) := by
  rw [List.map_map, List.map_map]
  rfl

/-- A text in which every carriage return stands before a line feed has the tokens and the remarks
of the text without its carriage returns. -/
theorem analyse_unifyLineEndings {text : Text} (h : text.PairsReturns) :
    tokens text.unifyLineEndings = tokens text ∧
      (analyse text.unifyLineEndings).report.errors.map LexicalError.remark =
        (analyse text).report.errors.map LexicalError.remark := by
  induction text using Text.induction_lines with
  | last line hline =>
      have hsame := Text.unifyLineEndings_append (h.last hline) []
      rw [List.append_nil, Text.unifyLineEndings, List.append_nil] at hsame
      rw [hsame]
      exact ⟨rfl, rfl⟩
  | next line rest hline ih =>
      obtain ⟨htokens, hremarks⟩ := ih h.behind_line
      obtain ⟨body, halike, hunified⟩ := h.exists_body hline
      obtain ⟨scanned, hshort, hwhole, hwholeErrors⟩ :=
        analyse_lineFeed_of_eq halike rest.unifyLineEndings rest
      obtain ⟨-, -, -, hshortErrors⟩ := analyse_lineFeed body rest.unifyLineEndings
      rw [hunified]
      constructor
      · rw [hshort, hwhole, htokens]
      · rw [hshortErrors, hwholeErrors, List.map_append, List.map_append, map_remark_later,
          map_remark_later, hremarks]

end LoxLexer
