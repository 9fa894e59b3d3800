import LoxLexer.Proofs.Lexing.Shift
import LoxLexer.Proofs.Lexeme.Front

/-!
# White space between lexemes

A lexeme looks at most two characters beyond its end, and no lexeme but a comment or a string goes
on with white space.  So what follows a lexeme may be exchanged for white space, and white space
itself leaves no trace but its line feeds and its length.

* `BreaksOff` — one text goes along with another up to a place where it ends or has white space.
* `Front.withRest` — a lexeme stays what it is before such a text.
* `scannedOf_whiteSpace`, `errorsOf_whiteSpace` — white space is neither token nor error.
-/

namespace LoxLexer

/-- White space: a blank or a line feed. -/
def isWhiteSpace (c : Char) : Bool := isBlank c || c = '\n'

theorem mem_of_isWhiteSpace {c : Char} (h : isWhiteSpace c = true) :
    c ∈ [' ', '\t', '\r', '\n'] := by
  simpa [isWhiteSpace, isBlank, or_assoc] using h

/-! ### Exchanging what follows a lexeme -/

/-- `BreaksOff rest more`: `more` goes along with `rest`, and then ends or goes on with white
space. -/
inductive BreaksOff : Text → Text → Prop
  | atEnd (rest : Text) : BreaksOff rest []
  | white {c : Char} (hc : isWhiteSpace c = true) (rest more : Text) : BreaksOff rest (c :: more)
  | same (c : Char) {rest more : Text} (h : BreaksOff rest more) :
      BreaksOff (c :: rest) (c :: more)

namespace BreaksOff

variable {rest more : Text}

/-- A text goes along with itself up to white space that is set behind it. -/
theorem append (rest : Text) {c : Char} (hc : isWhiteSpace c = true) (more : Text) :
    BreaksOff rest (rest ++ c :: more) := by
  induction rest with
  | nil => exact .white hc [] more
  | cons d rest ih => exact .same d ih

/-- A run that white space ends is not made longer. -/
theorem stops {property : Char → Bool} (h : BreaksOff rest more)
    (hwhite : ∀ c ∈ [' ', '\t', '\r', '\n'], property c = false)
    (hrest : Text.Stops property rest) : Text.Stops property more := by
  cases h with
  | atEnd => exact Text.stops_nil property
  | white hc rest more => exact Text.stops_cons (hwhite _ (mem_of_isWhiteSpace hc)) more
  | same c h => exact Text.stops_cons (hrest c rfl) _

theorem head?_ne {c : Char} (h : BreaksOff rest more) (hc : isWhiteSpace c = false)
    (hrest : rest.head? ≠ some c) : more.head? ≠ some c := by
  cases h with
  | atEnd => simp
  | white hd rest more =>
      intro heq
      obtain rfl := Option.some.inj heq
      rw [hd] at hc
      contradiction
  | same d h => simpa using hrest

/-- A fraction begins in two characters, neither of which is white space. -/
theorem not_startsFraction (h : BreaksOff rest more) (hrest : ¬ StartsFraction rest) :
    ¬ StartsFraction more := by
  rintro ⟨d, tail, rfl, hd⟩
  cases h with
  | white hc => exact absurd hc (by decide)
  | same c h =>
      cases h with
      | white hc =>
          have hdigit : ∀ e ∈ [' ', '\t', '\r', '\n'], isDigit e = false :=
            Text.forall_mem_of_all (by decide)
          rw [hdigit d (mem_of_isWhiteSpace hc)] at hd
          contradiction
      | same e h => exact hrest ⟨d, _, rfl, hd⟩

end BreaksOff

/-- A lexeme stays what it is before a rest that breaks off.  A comment needs a rest that ends it,
and a string that goes unclosed to the end of the text has nothing behind it. -/
theorem Front.withRest {text rest more : Text} {lexeme : Lexeme} (h : Front text lexeme rest)
    (hmore : BreaksOff rest more)
    (hcomment : lexeme.shape = .comment → Text.Stops isCommentChar more)
    (hunclosed : lexeme.shape = .unclosed → '\n' ∈ lexeme.text ∨ more = []) :
    Front (lexeme.text ++ more) lexeme more := by
  have hdigit : ∀ c ∈ [' ', '\t', '\r', '\n'], isDigit c = false :=
    Text.forall_mem_of_all (by decide)
  have hword : ∀ c ∈ [' ', '\t', '\r', '\n'], isWordChar c = false :=
    Text.forall_mem_of_all (by decide)
  cases h with
  | blank hc => exact .blank hc
  | lineFeed => exact .lineFeed
  | comment hbody hrest => exact .comment hbody (hcomment rfl)
  | single hc => exact .single hc
  | slash hrest => exact .slash (hmore.head?_ne (by decide) hrest)
  | operator hc hrest => exact .operator hc (hmore.head?_ne (by decide) hrest)
  | operatorEqual hc => exact .operatorEqual hc
  | @string body rest hbody =>
      have hfront : Front ('"' :: (body ++ '"' :: more)) _ more := .string hbody
      simpa using hfront
  | @unclosed body rest hbody =>
      have hfront : Front ('"' :: (body ++ '\n' :: more)) _ more := .unclosed hbody
      simpa using hfront
  | @unclosedAtEnd body hbody =>
      -- it holds no line feed, so what follows must be empty
      have hfeed : '\n' ∉ '"' :: body := by
        simpa using lineFeed_notMem hbody (by decide)
      obtain rfl := (hunclosed rfl).resolve_left hfeed
      simpa using Front.unclosedAtEnd hbody
  | integer hc hdigits hrest hpoint =>
      exact .integer hc hdigits (hmore.stops hdigit hrest) (hmore.not_startsFraction hpoint)
  | fraction hc hdigits hd hdecimals hrest =>
      simpa using Front.fraction hc hdigits hd hdecimals (hmore.stops hdigit hrest)
  | word hc hbody hrest => exact .word hc hbody (hmore.stops hword hrest)
  | stray hc hdigit hword => exact .stray hc hdigit hword

/-! ### White space leaves no trace -/

/-- No lexeme is both a token and an error. -/
theorem Lexeme.defect?_eq_none {lexeme : Lexeme} {kind : TokenKind}
    (h : lexeme.kind? = some kind) : lexeme.defect? = none := by
  obtain ⟨shape, text⟩ := lexeme
  cases shape <;> first | rfl | contradiction

/-- A character of white space is a lexeme of its own, and counts as nothing. -/
theorem exists_front_whiteSpace {c : Char} (hc : isWhiteSpace c = true) (rest : Text) :
    ∃ lexeme, Front (c :: rest) lexeme rest ∧ lexeme.text = [c] ∧ lexeme.kind? = none ∧
      lexeme.defect? = none := by
  rcases (Bool.or_eq_true _ _).mp hc with hblank | hfeed
  · exact ⟨_, .blank hblank, rfl, rfl, rfl⟩
  · obtain rfl := of_decide_eq_true hfeed
    exact ⟨_, .lineFeed, rfl, rfl, rfl⟩

section WhiteSpace

variable {space : Text} (hspace : ∀ c ∈ space, isWhiteSpace c = true)

include hspace

theorem scannedOf_whiteSpace (line : Int) (rest : Text) :
    scannedOf line (lexemes (space ++ rest)) =
      scannedOf (line + space.lineFeeds) (lexemes rest) := by
  induction space generalizing line with
  | nil => simp
  | cons c space ih =>
      obtain ⟨hc, hspace⟩ := List.forall_mem_cons.mp hspace
      obtain ⟨lexeme, hfront, htext, hkind, -⟩ := exists_front_whiteSpace hc (space ++ rest)
      have hfeeds : Text.lineFeeds (c :: space) = Text.lineFeeds [c] + Text.lineFeeds space :=
        Text.lineFeeds_append [c] space
      rw [List.cons_append, hfront.lexemes_eq, scannedOf, Lexeme.token?, hkind, htext,
        ih hspace, hfeeds, Int.natCast_add, Int.add_assoc]
      rfl

theorem errorsOf_whiteSpace (line : Int) (offset : Nat) (rest : Text) :
    errorsOf line offset (lexemes (space ++ rest)) =
      errorsOf (line + space.lineFeeds) (offset + space.length) (lexemes rest) := by
  induction space generalizing line offset with
  | nil => simp
  | cons c space ih =>
      obtain ⟨hc, hspace⟩ := List.forall_mem_cons.mp hspace
      obtain ⟨lexeme, hfront, htext, -, hdefect⟩ := exists_front_whiteSpace hc (space ++ rest)
      have hfeeds : Text.lineFeeds (c :: space) = Text.lineFeeds [c] + Text.lineFeeds space :=
        Text.lineFeeds_append [c] space
      have hlength : offset + (c :: space).length = offset + [c].length + space.length := by
        simp only [List.length_cons, List.length_nil]
        omega
      rw [List.cons_append, hfront.lexemes_eq, errorsOf, hdefect, htext, ih hspace, hfeeds,
        Int.natCast_add, ← Int.add_assoc, hlength]
      rfl

end WhiteSpace
end LoxLexer
