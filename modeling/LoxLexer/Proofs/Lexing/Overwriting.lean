import LoxLexer.Proofs.Cursor.Round
import LoxLexer.Proofs.Lexing.WhiteSpace
import Mathlib.Data.List.Forall2

/-!
# Errors overwritten by spaces

Behind an error the lexer goes on as if the defective piece were white space.  So a source in which
some of the errors are overwritten by spaces has the same tokens, and the errors that are left.

* `LexicalError.covers` — the positions of an error: its character, or the line from its quote on.
* `overwrite` — a source with spaces at the positions of some of its errors.
* `fade` — the same, read off the lexemes; `overwrite_eq_fade` says that it is the same.
* `scannedOf_fade`, `errorsOf_fade` — what is found in the faded text.
* `Cursor.finish_overwrite` — the law, for the cursor.
-/

namespace LoxLexer

/-! ### The region of an error -/

/-- How many characters the region of an error has: the unexpected one, or what is left of the line
from the quote on, without the line feed. -/
def LexicalError.extent (source : Text) (error : LexicalError) : Nat :=
  match error.kind with
  | .unexpectedCharacter => 1
  | .unterminatedString => ((source.drop error.offset.toNat).takeWhile (· ≠ '\n')).length

/-- Whether a position of the source lies in the region of an error. -/
def LexicalError.covers (source : Text) (error : LexicalError) (position : Nat) : Bool :=
  error.offset ≤ position ∧ position < error.offset + error.extent source

/-- The source with spaces in the regions of the errors. -/
def overwrite (source : Text) (errors : List LexicalError) : Text :=
  source.mapIdx fun position c => if errors.any (·.covers source position) then ' ' else c

/-! ### Fading characters -/

/-- A space in place of a character that is no line feed. -/
def fadeChar (c : Char) : Char := if c = '\n' then c else ' '

theorem isWhiteSpace_fadeChar (c : Char) : isWhiteSpace (fadeChar c) = true := by
  by_cases hc : c = '\n'
  · subst hc
    decide
  · rw [fadeChar, if_neg hc]
    decide

theorem isWhiteSpace_of_mem_map_fadeChar (text : Text) :
    ∀ c ∈ text.map fadeChar, isWhiteSpace c = true := by
  intro c hc
  obtain ⟨d, -, rfl⟩ := List.mem_map.mp hc
  exact isWhiteSpace_fadeChar d

/-- Some of the characters of a text are faded. -/
def Faded (text faded : Text) : Prop :=
  List.Forall₂ (fun c d => d = c ∨ d = fadeChar c) text faded

namespace Faded

variable {text faded : Text}

theorem refl (text : Text) : Faded text text :=
  List.forall₂_same.mpr fun _ _ => .inl rfl

theorem map_fadeChar (text : Text) : Faded text (text.map fadeChar) :=
  List.forall₂_map_right_iff.mpr (List.forall₂_same.mpr fun _ _ => .inr rfl)

/-- A faded text goes along with the text up to the first space. -/
theorem breaksOff (h : Faded text faded) : BreaksOff text faded := by
  induction h with
  | nil => exact .atEnd []
  | @cons c d text faded hd h ih =>
      rcases hd with rfl | rfl
      · exact .same d ih
      · exact .white (isWhiteSpace_fadeChar c) _ _

theorem lineFeeds_eq (h : Faded text faded) : Text.lineFeeds faded = Text.lineFeeds text := by
  induction h with
  | nil => rfl
  | @cons c d text faded hd h ih =>
      have hfeed : (d == '\n') = (c == '\n') := by
        rcases hd with rfl | rfl
        · rfl
        · by_cases hc : c = '\n' <;> simp [fadeChar, hc]
      rw [Text.lineFeeds, Text.lineFeeds, List.count_cons, List.count_cons, hfeed]
      exact congrArg (· + _) ih

/-- Line feeds do not fade, so comments end where they did. -/
theorem stops_comment (h : Faded text faded) (htext : Text.Stops isCommentChar text) :
    Text.Stops isCommentChar faded := by
  cases h with
  | nil => exact Text.stops_nil _
  | @cons c d text faded hd h =>
      have hc : c = '\n' := by simpa [isCommentChar] using htext c rfl
      subst hc
      rcases hd with rfl | rfl <;> exact Text.stops_cons (by decide) faded

end Faded

/-! ### Lexemes with faded errors -/

section Fade

variable (chosen : LexicalError → Bool)

/-- The text of lexemes from a place on, with the chosen ones among their errors faded. -/
def fade (line : Int) (offset : Nat) : List Lexeme → Text
  | [] => []
  | lexeme :: rest =>
    (if (lexeme.defect?.map (·.located line offset)).any chosen then lexeme.text.map fadeChar
      else lexeme.text) ++
      fade (line + lexeme.text.lineFeeds) (offset + lexeme.text.length) rest

theorem faded_fade (line : Int) (offset : Nat) (found : List Lexeme) :
    Faded (textOf found) (fade chosen line offset found) := by
  induction found generalizing line offset with
  | nil => exact .nil
  | cons lexeme rest ih =>
      rw [fade, textOf_cons]
      refine List.rel_append ?_ (ih _ _)
      split
      · exact Faded.map_fadeChar lexeme.text
      · exact Faded.refl lexeme.text

variable {text rest : Text} {lexeme : Lexeme} {line : Int} {offset : Nat}

/-- A lexeme that is not faded stays what it is, whatever is faded behind it. -/
theorem Front.fade_rest (h : Front text lexeme rest) :
    Front (lexeme.text ++ fade chosen line offset (lexemes rest)) lexeme
      (fade chosen line offset (lexemes rest)) := by
  have hfaded := faded_fade chosen line offset (lexemes rest)
  rw [textOf_lexemes] at hfaded
  -- comments still end at their line feed, and behind an unclosed string nothing is left to fade
  refine h.withRest hfaded.breaksOff ?_ ?_
  · intro hshape
    cases h with
    | comment hbody hrest => exact hfaded.stops_comment hrest
    | _ => contradiction
  · intro hshape
    cases h with
    | unclosed hbody => exact .inl (by simp)
    | unclosedAtEnd hbody =>
        right
        rw [lexemes_nil]
        rfl
    | _ => contradiction

theorem scannedOf_fade (line : Int) (offset : Nat) (text : Text) :
    scannedOf line (lexemes (fade chosen line offset (lexemes text))) =
      scannedOf line (lexemes text) := by
  induction text using Front.induction generalizing line offset with
  | nil => rw [lexemes_nil, fade, lexemes_nil]
  | front text lexeme rest hfront ih =>
      rw [hfront.lexemes_eq, fade]
      split
      · -- what is faded was an error and no token
        rename_i hchosen
        have hkind : lexeme.kind? = none := by
          refine Option.eq_none_iff_forall_ne_some.mpr fun kind hkind => ?_
          simp [Lexeme.defect?_eq_none hkind] at hchosen
        rw [scannedOf_whiteSpace (isWhiteSpace_of_mem_map_fadeChar lexeme.text),
          (Faded.map_fadeChar lexeme.text).lineFeeds_eq, ih, scannedOf, Lexeme.token?, hkind]
        rfl
      · rw [(hfront.fade_rest chosen).lexemes_eq, scannedOf, scannedOf, ih]

theorem errorsOf_fade (line : Int) (offset : Nat) (text : Text) :
    errorsOf line offset (lexemes (fade chosen line offset (lexemes text))) =
      (errorsOf line offset (lexemes text)).filter (fun error => !chosen error) := by
  induction text using Front.induction generalizing line offset with
  | nil => rw [lexemes_nil, fade, lexemes_nil, errorsOf, List.filter_nil]
  | front text lexeme rest hfront ih =>
      rw [hfront.lexemes_eq, fade]
      split
      · rename_i hchosen
        obtain ⟨error, herror, hany⟩ := (Option.any_eq_true _ _).mp hchosen
        rw [errorsOf_whiteSpace (isWhiteSpace_of_mem_map_fadeChar lexeme.text),
          (Faded.map_fadeChar lexeme.text).lineFeeds_eq, List.length_map, ih, errorsOf, herror]
        simp [hany]
      · -- the lexeme stays, and with it the error that was not chosen, if it has one
        rename_i hchosen
        have hkept : ∀ error, lexeme.defect?.map (·.located line offset) = some error →
            chosen error = false := by
          intro error herror
          rw [herror] at hchosen
          simpa using hchosen
        rw [(hfront.fade_rest chosen).lexemes_eq, errorsOf, errorsOf, ih, List.filter_append]
        cases herror : lexeme.defect?.map (·.located line offset) with
        | none => rfl
        | some error => simp [hkept error herror]

end Fade

/-! ### Regions are lexemes -/

/-- The region of a defective lexeme is the lexeme without the line feed that may end it. -/
theorem Front.exists_region {text rest : Text} {lexeme : Lexeme} {defect : Defect}
    (h : Front text lexeme rest) (hdefect : lexeme.defect? = some defect) :
    ∃ region ending, lexeme.text = region ++ ending ∧ '\n' ∉ region ∧
      (ending = [] ∨ ending = ['\n']) ∧
      ∀ (source : Text) (line : Int) (offset : Nat), source.drop offset = text →
        (defect.located line offset).extent source = region.length := by
  have hfeed {body : Text} (hbody : ∀ c ∈ body, isStringChar c = true) : '\n' ∉ '"' :: body := by
    simpa using lineFeed_notMem hbody (by decide)
  cases h with
  | @unclosed body rest hbody =>
      obtain rfl := Option.some.inj hdefect
      refine ⟨'"' :: body, ['\n'], rfl, hfeed hbody, .inr rfl, fun source line offset hdrop => ?_⟩
      have htake := Text.takeWhile_run (Text.decide_ne_of_notMem (hfeed hbody))
        (Text.stops_cons (c := '\n') (by decide) rest)
      simp only [LexicalError.extent, Defect.located, Defect.kind, Int.toNat_natCast, hdrop]
      exact congrArg List.length htake
  | @unclosedAtEnd body hbody =>
      obtain rfl := Option.some.inj hdefect
      refine ⟨'"' :: body, [], by simp, hfeed hbody, .inl rfl, fun source line offset hdrop => ?_⟩
      have htake := Text.takeWhile_run (Text.decide_ne_of_notMem (hfeed hbody)) (Text.stops_nil _)
      rw [List.append_nil] at htake
      simp only [LexicalError.extent, Defect.located, Defect.kind, Int.toNat_natCast, hdrop]
      exact congrArg List.length htake
  | @stray c rest hc hdigit hword =>
      obtain rfl := Option.some.inj hdefect
      have hregion : '\n' ∉ [c] := by simpa using hc.lineFeed.symm
      exact ⟨[c], [], rfl, hregion, .inl rfl, fun source line offset hdrop => rfl⟩
  | _ => contradiction

theorem covers_located {source : Text} {defect : Defect} {line : Int} {offset n : Nat}
    (h : (defect.located line offset).extent source = n) (i : Nat) :
    (defect.located line offset).covers source (offset + i) = decide (i < n) := by
  have hiff : ((offset : Int) ≤ (offset + i : Nat) ∧
      ((offset + i : Nat) : Int) < (offset : Int) + n) ↔ i < n := by
    omega
  rw [LexicalError.covers, h]
  exact decide_eq_decide.mpr hiff

theorem covers_eq_false {source : Text} {error : LexicalError} {position : Nat}
    (h : position < error.offset) : error.covers source position = false := by
  refine decide_eq_false fun hcovers => ?_
  omega

section Regions

variable (chosen : LexicalError → Bool) {source text rest : Text} {lexeme : Lexeme} {line : Int}
  {offset : Nat}

/-- The errors of what follows a position do not reach back before it. -/
theorem any_covers_errorsOf (found : List Lexeme) {position : Nat} (h : position < offset) :
    ((errorsOf line offset found).filter chosen).any (·.covers source position) = false := by
  refine List.any_eq_false.mpr fun error herror => ?_
  have hle := offset_le_of_mem_errorsOf (List.mem_of_mem_filter herror)
  have hfalse : error.covers source position = false := covers_eq_false (by omega)
  simp [hfalse]

/-- The error of a lexeme does not reach beyond it. -/
theorem Front.any_covers_behind (h : Front text lexeme rest) (hdrop : source.drop offset = text)
    (i : Nat) :
    ((lexeme.defect?.map (·.located line offset)).toList.filter chosen).any
      (·.covers source (offset + (i + lexeme.text.length))) = false := by
  cases hdefect : lexeme.defect? with
  | none => rfl
  | some defect =>
      obtain ⟨region, ending, htext, -, -, hextent⟩ := h.exists_region hdefect
      have hcovers := covers_located (hextent source line offset hdrop) (i + lexeme.text.length)
      have hnot : ¬ i + lexeme.text.length < region.length := by
        rw [htext, List.length_append]
        omega
      refine List.any_eq_false.mpr fun error herror => ?_
      obtain rfl := List.mem_singleton.mp (List.mem_of_mem_filter herror)
      simp [hcovers, hnot]

/-- A defective lexeme with spaces in its region. -/
theorem Front.mapIdx_covers {defect : Defect} (h : Front text lexeme rest)
    (hdefect : lexeme.defect? = some defect) (hdrop : source.drop offset = text) :
    lexeme.text.mapIdx (fun i c =>
        if (defect.located line offset).covers source (offset + i) then ' ' else c) =
      lexeme.text.map fadeChar := by
  obtain ⟨region, ending, htext, hregion, hending, hextent⟩ := h.exists_region hdefect
  have hcovers := covers_located (hextent source line offset hdrop)
  simp only [hcovers, decide_eq_true_eq]
  rw [htext, List.mapIdx_append, List.map_append]
  congr 1
  · refine List.ext_getElem (by simp) fun i hi hi' => ?_
    have hlt : i < region.length := by simpa using hi
    have hc : region[i] ≠ '\n' := by
      intro hc
      exact hregion (hc ▸ List.getElem_mem hlt)
    simp [fadeChar, hlt, hc]
  · rcases hending with rfl | rfl
    · rfl
    · simp [fadeChar]

/-- Inside a lexeme, overwriting its error if that is chosen fades the lexeme. -/
theorem Front.mapIdx_own (h : Front text lexeme rest) (hdrop : source.drop offset = text) :
    lexeme.text.mapIdx (fun i c =>
        if ((lexeme.defect?.map (·.located line offset)).toList.filter chosen).any
          (·.covers source (offset + i)) then ' ' else c) =
      if (lexeme.defect?.map (·.located line offset)).any chosen then lexeme.text.map fadeChar
      else lexeme.text := by
  have hsame : lexeme.text.mapIdx (fun _ c => c) = lexeme.text :=
    List.ext_getElem (by simp) fun i hi hi' => by simp
  cases hdefect : lexeme.defect? with
  | none => simpa using hsame
  | some defect =>
      by_cases hchosen : chosen (defect.located line offset) = true
      · have hfaded : lexeme.text.mapIdx (fun i c =>
            if (defect.located line offset).covers source (offset + i) then ' ' else c) =
            lexeme.text.map fadeChar := h.mapIdx_covers hdefect hdrop
        simpa [hchosen] using hfaded
      · simpa [hchosen] using hsame

/-- Overwriting the regions of the chosen errors fades the lexemes that they are. -/
theorem mapIdx_covers_eq_fade (source text : Text) (line : Int) (offset : Nat)
    (hdrop : source.drop offset = text) :
    text.mapIdx (fun i c =>
        if ((errorsOf line offset (lexemes text)).filter chosen).any
          (·.covers source (offset + i)) then ' ' else c) =
      fade chosen line offset (lexemes text) := by
  induction text using Front.induction generalizing line offset with
  | nil => rw [lexemes_nil, fade, List.mapIdx_nil]
  | front text lexeme rest hfront ih =>
      have htext := hfront.text_append
      have hrest : source.drop (offset + lexeme.text.length) = rest := by
        rw [← List.drop_drop, hdrop, htext, List.drop_left]
      rw [hfront.lexemes_eq, fade, ← ih _ _ hrest, errorsOf, List.filter_append]
      simp only [List.any_append]
      subst htext
      rw [List.mapIdx_append]
      congr 1
      · -- inside the lexeme only its own error counts
        have hlater : ∀ i < lexeme.text.length, ((errorsOf (line + lexeme.text.lineFeeds)
            (offset + lexeme.text.length) (lexemes rest)).filter chosen).any
              (·.covers source (offset + i)) = false := by
          intro i hi
          exact any_covers_errorsOf chosen _ (by omega)
        rw [← hfront.mapIdx_own chosen hdrop]
        refine List.mapIdx_eq_mapIdx_iff.mpr fun i hi => ?_
        rw [hlater i hi, Bool.or_false]
      · refine List.mapIdx_eq_mapIdx_iff.mpr fun i hi => ?_
        rw [hfront.any_covers_behind chosen hdrop, Bool.false_or, Nat.add_comm i,
          Nat.add_assoc]

end Regions

theorem overwrite_eq_fade (chosen : LexicalError → Bool) (source : Text) :
    overwrite source ((analyse source).report.errors.filter chosen) =
      fade chosen 1 0 (lexemes source) := by
  have hfade := mapIdx_covers_eq_fade chosen source source 1 0 List.drop_zero
  simp only [Nat.zero_add] at hfade
  exact hfade

namespace Cursor

/-- Overwriting any of the errors of a source by spaces leaves its tokens as they are, the end of
file included, and leaves the other errors, as they are and in their order. -/
theorem finish_overwrite (source : Text) (chosen : LexicalError → Bool) :
    ∃ first second,
      (fresh source).finish = (.ok first.tokens, first) ∧
      (fresh (overwrite source (first.report.errors.filter chosen))).finish =
        (.ok second.tokens, second) ∧
      second.tokens = first.tokens ∧
      second.report.errors = first.report.errors.filter (fun error => !chosen error) := by
  obtain ⟨first, hfirst, hfirstTokens, hfirstErrors⟩ := finish_fresh source {}
  have herrors : first.report.errors = (analyse source).report.errors := hfirstErrors
  have hoverwrite := overwrite_eq_fade chosen source
  rw [← herrors] at hoverwrite
  obtain ⟨second, hsecond, hsecondTokens, hsecondErrors⟩ :=
    finish_fresh (overwrite source (first.report.errors.filter chosen)) {}
  have hfeeds := (faded_fade chosen 1 0 (lexemes source)).lineFeeds_eq
  refine ⟨first, second, hfirst, hsecond, ?_, ?_⟩
  · rw [hsecondTokens, hfirstTokens, hoverwrite]
    show tokensOf 1 (lexemes _) = tokensOf 1 (lexemes source)
    rw [tokensOf_eq, tokensOf_eq, scannedOf_fade, textOf_lexemes, hfeeds]
  · rw [hsecondErrors, hoverwrite, herrors]
    exact errorsOf_fade chosen 1 0 source

end Cursor
end LoxLexer
