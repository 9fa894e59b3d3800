import LoxLexer.Lexing
import LoxLexer.Proofs.Text.Run

/-!
# The lexeme at the front of a text

`reach` decides by the first character and then counts.  This module says once, for every shape,
what the lexeme at the front of a text looks like and what may follow it; the other modules argue
from these cases and do not open `reach` again.

* `Front` — a lexeme stands at the front of a text, and a rest follows it.
* `exists_front` — every text that is not empty has a front.
* `Front.lexemes_eq` — it has no other: the lexemes of the text are that lexeme and the lexemes of
  the rest.
* `Front.induction` — induction over a text, one lexeme at a time.
-/

namespace LoxLexer

/-! ### Fronts -/

/-- A character that means nothing by itself: a lexeme that starts with it is a number, a word or
a stray character. -/
structure IsOrdinary (c : Char) : Prop where
  single : single? c = none
  operator : operator? c = none
  slash : c ≠ '/'
  blank : isBlank c = false
  lineFeed : c ≠ '\n'
  quote : c ≠ '"'

/-- The text goes on with a point and a digit. -/
def StartsFraction (text : Text) : Prop :=
  ∃ d rest, text = '.' :: d :: rest ∧ isDigit d = true

/-- `Front text lexeme rest`: the lexeme stands at the front of the text, and `rest` follows. -/
inductive Front : Text → Lexeme → Text → Prop
  | blank {c : Char} {rest : Text} (hc : isBlank c = true) :
      Front (c :: rest) ⟨.blank, [c]⟩ rest
  | lineFeed {rest : Text} : Front ('\n' :: rest) ⟨.lineFeed, ['\n']⟩ rest
  | comment {body rest : Text} (hbody : ∀ c ∈ body, isCommentChar c = true)
      (hrest : Text.Stops isCommentChar rest) :
      Front ('/' :: '/' :: (body ++ rest)) ⟨.comment, '/' :: '/' :: body⟩ rest
  | single {c : Char} {kind : TokenKind} {rest : Text} (hc : single? c = some kind) :
      Front (c :: rest) ⟨.symbol kind, [c]⟩ rest
  | slash {rest : Text} (hrest : rest.head? ≠ some '/') :
      Front ('/' :: rest) ⟨.symbol .slash, ['/']⟩ rest
  | operator {c : Char} {alone withEqual : TokenKind} {rest : Text}
      (hc : operator? c = some (alone, withEqual)) (hrest : rest.head? ≠ some '=') :
      Front (c :: rest) ⟨.symbol alone, [c]⟩ rest
  | operatorEqual {c : Char} {alone withEqual : TokenKind} {rest : Text}
      (hc : operator? c = some (alone, withEqual)) :
      Front (c :: '=' :: rest) ⟨.symbol withEqual, [c, '=']⟩ rest
  | string {body rest : Text} (hbody : ∀ c ∈ body, isStringChar c = true) :
      Front ('"' :: (body ++ '"' :: rest)) ⟨.string, '"' :: (body ++ ['"'])⟩ rest
  | unclosed {body rest : Text} (hbody : ∀ c ∈ body, isStringChar c = true) :
      Front ('"' :: (body ++ '\n' :: rest)) ⟨.unclosed, '"' :: (body ++ ['\n'])⟩ rest
  | unclosedAtEnd {body : Text} (hbody : ∀ c ∈ body, isStringChar c = true) :
      Front ('"' :: body) ⟨.unclosed, '"' :: body⟩ []
  | integer {c : Char} {digits rest : Text} (hc : isDigit c = true)
      (hdigits : ∀ d ∈ digits, isDigit d = true) (hrest : Text.Stops isDigit rest)
      (hpoint : ¬ StartsFraction rest) :
      Front (c :: (digits ++ rest)) ⟨.number, c :: digits⟩ rest
  | fraction {c d : Char} {digits decimals rest : Text} (hc : isDigit c = true)
      (hdigits : ∀ d ∈ digits, isDigit d = true) (hd : isDigit d = true)
      (hdecimals : ∀ d ∈ decimals, isDigit d = true) (hrest : Text.Stops isDigit rest) :
      Front (c :: (digits ++ '.' :: d :: (decimals ++ rest)))
        ⟨.number, c :: (digits ++ '.' :: d :: decimals)⟩ rest
  | word {c : Char} {body rest : Text} (hc : isWordStart c = true)
      (hbody : ∀ d ∈ body, isWordChar d = true) (hrest : Text.Stops isWordChar rest) :
      Front (c :: (body ++ rest)) ⟨.word, c :: body⟩ rest
  | stray {c : Char} {rest : Text} (hc : IsOrdinary c) (hdigit : isDigit c = false)
      (hword : isWordStart c = false) : Front (c :: rest) ⟨.stray, [c]⟩ rest

namespace Front

variable {text rest : Text} {lexeme : Lexeme}

/-- A text is the lexeme at its front and the rest. -/
theorem text_append (h : Front text lexeme rest) : text = lexeme.text ++ rest := by
  cases h <;> simp

theorem text_ne_nil (h : Front text lexeme rest) : lexeme.text ≠ [] := by
  cases h <;> simp

end Front

/-! ### The classes of first characters are disjoint -/

theorem mem_of_single? {c : Char} {kind : TokenKind} (h : single? c = some kind) :
    c ∈ ['(', ')', '{', '}', ',', '.', '-', '+', ';', '*'] := by
  unfold single? at h
  split at h
  all_goals first | contradiction | decide

theorem mem_of_operator? {c : Char} {kinds : TokenKind × TokenKind}
    (h : operator? c = some kinds) : c ∈ ['!', '=', '<', '>'] := by
  unfold operator? at h
  split at h
  all_goals first | contradiction | decide

theorem single?_eq_none {c : Char} {kinds : TokenKind × TokenKind}
    (h : operator? c = some kinds) : single? c = none := by
  have hmem := mem_of_operator? h
  simp only [List.mem_cons, List.not_mem_nil, or_false] at hmem
  rcases hmem with rfl | rfl | rfl | rfl <;> rfl

theorem mem_of_isBlank {c : Char} (h : isBlank c = true) : c ∈ [' ', '\t', '\r'] := by
  simpa [isBlank, or_assoc] using h

/-- The characters that mean something by themselves. -/
def meaningful : List Char :=
  ['(', ')', '{', '}', ',', '.', '-', '+', ';', '*', '!', '=', '<', '>', '/', ' ', '\t', '\r',
    '\n', '"']

/-- A character with a property that no meaningful character has is ordinary. -/
theorem isOrdinary_of_property {property : Char → Bool} {c : Char} (hc : property c = true)
    (hmeaningful : ∀ d ∈ meaningful, property d = false) : IsOrdinary c := by
  have hnot : c ∉ meaningful := by
    intro hmem
    have hfalse := hmeaningful c hmem
    rw [hc] at hfalse
    contradiction
  have hsub (part : List Char) (hpart : part ⊆ meaningful) : c ∉ part := fun hmem =>
    hnot (hpart hmem)
  refine ⟨?_, ?_, ?_, ?_, ?_, ?_⟩
  · refine Option.eq_none_iff_forall_ne_some.mpr fun kind hkind => ?_
    exact hsub _ (by decide) (mem_of_single? hkind)
  · refine Option.eq_none_iff_forall_ne_some.mpr fun kinds hkinds => ?_
    exact hsub _ (by decide) (mem_of_operator? hkinds)
  · rintro rfl
    exact hnot (by decide)
  · refine Bool.eq_false_iff.mpr fun hblank => ?_
    exact hsub _ (by decide) (mem_of_isBlank hblank)
  · rintro rfl
    exact hnot (by decide)
  · rintro rfl
    exact hnot (by decide)

theorem IsOrdinary.notMem_meaningful {c : Char} (h : IsOrdinary c) : c ∉ meaningful := by
  intro hmem
  have hall : ∀ d ∈ meaningful, single? d ≠ none ∨ operator? d ≠ none ∨ d = '/' ∨
      isBlank d = true ∨ d = '\n' ∨ d = '"' := Text.forall_mem_of_all (by decide)
  rcases hall c hmem with hc | hc | hc | hc | hc | hc
  · exact hc h.single
  · exact hc h.operator
  · exact h.slash hc
  · exact Bool.eq_false_iff.mp h.blank hc
  · exact h.lineFeed hc
  · exact h.quote hc

theorem isOrdinary_of_isDigit {c : Char} (h : isDigit c = true) : IsOrdinary c :=
  isOrdinary_of_property h (Text.forall_mem_of_all (by decide))

theorem isOrdinary_of_isWordStart {c : Char} (h : isWordStart c = true) : IsOrdinary c :=
  isOrdinary_of_property h (Text.forall_mem_of_all (by decide))

/-- Words do not start with a digit. -/
theorem isDigit_eq_false {c : Char} (h : isWordStart c = true) : isDigit c = false := by
  refine Bool.eq_false_iff.mpr fun hdigit => ?_
  obtain ⟨-, hle⟩ := isDigit_iff.mp hdigit
  rcases isWordStart_iff.mp h with ⟨hlow, -⟩ | ⟨hlow, -⟩ | rfl
  · exact absurd (Char.le_trans hlow hle) (by decide)
  · exact absurd (Char.le_trans hlow hle) (by decide)
  · exact absurd hle (by decide)

/-! ### What is found by the first character -/

theorem reach_single {c : Char} {kind : TokenKind} (h : single? c = some kind) (rest : Text) :
    reach c rest = (.symbol kind, 0) := by
  simp [reach, h]

theorem reach_operator {c : Char} {alone withEqual : TokenKind}
    (h : operator? c = some (alone, withEqual)) (rest : Text) :
    reach c rest =
      if rest.head? = some '=' then (.symbol withEqual, 1) else (.symbol alone, 0) := by
  simp [reach, single?_eq_none h, h]

theorem reach_slash (rest : Text) :
    reach '/' rest =
      if rest.head? = some '/' then (.comment, (rest.takeWhile isCommentChar).length)
      else (.symbol .slash, 0) := rfl

theorem reach_blank {c : Char} (h : isBlank c = true) (rest : Text) :
    reach c rest = (.blank, 0) := by
  have hmem := mem_of_isBlank h
  simp only [List.mem_cons, List.not_mem_nil, or_false] at hmem
  rcases hmem with rfl | rfl | rfl <;> rfl

theorem reach_lineFeed (rest : Text) : reach '\n' rest = (.lineFeed, 0) := rfl

theorem reach_quote (rest : Text) : reach '"' rest = stringReach rest := rfl

theorem reach_ordinary {c : Char} (h : IsOrdinary c) (rest : Text) :
    reach c rest =
      if isDigit c then (.number, numberReach rest)
      else if isWordStart c then (.word, (rest.takeWhile isWordChar).length)
      else (.stray, 0) := by
  simp [reach, h.single, h.operator, h.slash, h.blank, h.lineFeed, h.quote]

theorem reach_digit {c : Char} (h : isDigit c = true) (rest : Text) :
    reach c rest = (.number, numberReach rest) := by
  rw [reach_ordinary (isOrdinary_of_isDigit h), if_pos h]

theorem reach_wordStart {c : Char} (h : isWordStart c = true) (rest : Text) :
    reach c rest = (.word, (rest.takeWhile isWordChar).length) := by
  rw [reach_ordinary (isOrdinary_of_isWordStart h), isDigit_eq_false h, if_pos h]
  rfl

/-! ### Line feeds -/

theorem lineFeed_notMem {property : Char → Bool} {text : Text}
    (htext : ∀ c ∈ text, property c = true) (hfeed : property '\n' = false) : '\n' ∉ text := by
  intro hmem
  rw [htext _ hmem] at hfeed
  contradiction

/-- Only line feeds and unclosed strings hold a line feed. -/
theorem Front.lineFeed_notMem_text {text rest : Text} {lexeme : Lexeme}
    (h : Front text lexeme rest) (hfeed : lexeme.shape ≠ .lineFeed)
    (hunclosed : lexeme.shape ≠ .unclosed) : '\n' ∉ lexeme.text := by
  have hdigit {digits : Text} (hdigits : ∀ d ∈ digits, isDigit d = true) : '\n' ∉ digits :=
    lineFeed_notMem hdigits (by decide)
  have hfirst {property : Char → Bool} {c : Char} (hc : property c = true)
      (hno : property '\n' = false) : '\n' ≠ c := by
    rintro rfl
    rw [hc] at hno
    contradiction
  cases h with
  | blank hc => simpa using hfirst hc (by decide)
  | lineFeed => contradiction
  | comment hbody hrest =>
      have hnot : '\n' ∉ _ := lineFeed_notMem hbody (by decide)
      simp [hnot]
  | single hc =>
      intro hmem
      rw [← List.mem_singleton.mp hmem] at hc
      contradiction
  | slash hrest => decide
  | operator hc hrest =>
      intro hmem
      rw [← List.mem_singleton.mp hmem] at hc
      contradiction
  | operatorEqual hc =>
      intro hmem
      simp only [List.mem_cons, List.not_mem_nil, or_false] at hmem
      rcases hmem with rfl | hequal
      · contradiction
      · revert hequal
        decide
  | string hbody =>
      have hnot : '\n' ∉ _ := lineFeed_notMem hbody (by decide)
      simp [hnot]
  | unclosed hbody => contradiction
  | unclosedAtEnd hbody => contradiction
  | integer hc hdigits hrest hpoint => simp [hfirst hc (by decide), hdigit hdigits]
  | fraction hc hdigits hd hdecimals hrest =>
      simp [hfirst hc (by decide), hfirst hd (by decide), hdigit hdigits, hdigit hdecimals]
  | word hc hbody hrest =>
      have hnot : '\n' ∉ _ := lineFeed_notMem hbody (by decide)
      simp [hfirst hc (by decide), hnot]
  | stray hc hdigit hword => simpa using hc.lineFeed.symm

/-! ### How far strings and numbers reach -/

theorem eq_of_isStringChar_eq_false {c : Char} (h : isStringChar c = false) :
    c = '"' ∨ c = '\n' := by
  simp only [isStringChar, Bool.and_eq_false_iff, decide_eq_false_iff_not, ne_eq,
    Decidable.not_not] at h
  exact h

theorem stringReach_closed {body : Text} (hbody : ∀ c ∈ body, isStringChar c = true)
    (rest : Text) : stringReach (body ++ '"' :: rest) = (.string, body.length + 1) := by
  have hstop : isStringChar '"' = false := by decide
  have hrun := Text.takeWhile_run hbody (Text.stops_cons hstop rest)
  simp [stringReach, hrun]

theorem stringReach_lineFeed {body : Text} (hbody : ∀ c ∈ body, isStringChar c = true)
    (rest : Text) : stringReach (body ++ '\n' :: rest) = (.unclosed, body.length + 1) := by
  have hstop : isStringChar '\n' = false := by decide
  have hrun := Text.takeWhile_run hbody (Text.stops_cons hstop rest)
  simp [stringReach, hrun]

theorem stringReach_atEnd {body : Text} (hbody : ∀ c ∈ body, isStringChar c = true) :
    stringReach body = (.unclosed, body.length) := by
  have hrun := Text.takeWhile_run hbody (Text.stops_nil isStringChar)
  rw [List.append_nil] at hrun
  simp [stringReach, hrun]

theorem numberReach_integer {digits rest : Text} (hdigits : ∀ d ∈ digits, isDigit d = true)
    (hrest : Text.Stops isDigit rest) (hpoint : ¬ StartsFraction rest) :
    numberReach (digits ++ rest) = digits.length := by
  have hrun := Text.takeWhile_run hdigits hrest
  simp only [numberReach, hrun, List.drop_left]
  split
  · rename_i more
    have hnone : more.takeWhile isDigit = [] := by
      cases more with
      | nil => rfl
      | cons d more =>
          have hd : ¬ isDigit d = true := fun hd => hpoint ⟨d, more, rfl, hd⟩
          simp [hd]
    simp [hnone]
  · rfl

theorem numberReach_fraction {d : Char} {digits decimals rest : Text}
    (hdigits : ∀ d ∈ digits, isDigit d = true) (hd : isDigit d = true)
    (hdecimals : ∀ d ∈ decimals, isDigit d = true) (hrest : Text.Stops isDigit rest) :
    numberReach (digits ++ '.' :: d :: (decimals ++ rest)) =
      digits.length + 1 + (decimals.length + 1) := by
  have hpoint : isDigit '.' = false := by decide
  have hwhole := Text.takeWhile_run hdigits (Text.stops_cons hpoint (d :: (decimals ++ rest)))
  have hfraction := Text.takeWhile_run hdecimals hrest
  simp [numberReach, hwhole, hfraction, hd]

/-! ### Every text has one front -/

namespace Front

variable {lexeme : Lexeme} {text rest : Text}

/-- What is found at the front of a text is the lexeme that stands there. -/
theorem reach_eq {c : Char} {tail : Text} (h : Front (c :: tail) lexeme rest) :
    reach c tail = (lexeme.shape, lexeme.text.length - 1) := by
  cases h with
  | blank hc => exact reach_blank hc _
  | lineFeed => exact reach_lineFeed _
  | comment hbody hrest =>
      rw [reach_slash]
      have hrun : ∀ d ∈ '/' :: _, isCommentChar d = true :=
        List.forall_mem_cons.mpr ⟨by decide, hbody⟩
      simp only [List.head?_cons, if_true]
      rw [← List.cons_append, Text.takeWhile_run hrun hrest]
      rfl
  | single hc => exact reach_single hc _
  | slash hrest => rw [reach_slash, if_neg hrest]; rfl
  | operator hc hrest => rw [reach_operator hc, if_neg hrest]; rfl
  | operatorEqual hc => rw [reach_operator hc]; rfl
  | string hbody => simp [reach_quote, stringReach_closed hbody]
  | unclosed hbody => simp [reach_quote, stringReach_lineFeed hbody]
  | unclosedAtEnd hbody => simp [reach_quote, stringReach_atEnd hbody]
  | integer hc hdigits hrest hpoint =>
      simp [reach_digit hc, numberReach_integer hdigits hrest hpoint]
  | fraction hc hdigits hd hdecimals hrest =>
      simp [reach_digit hc, numberReach_fraction hdigits hd hdecimals hrest, Nat.add_assoc,
        Nat.add_comm]
  | word hc hbody hrest => simp [reach_wordStart hc, Text.takeWhile_run hbody hrest]
  | stray hc hdigit hword => rw [reach_ordinary hc, hdigit, hword]; rfl

/-- The lexemes of a text are the one at its front and the lexemes of the rest. -/
theorem lexemes_eq (h : Front text lexeme rest) : lexemes text = lexeme :: lexemes rest := by
  have htext := h.text_append
  obtain ⟨c, tail, hlexeme⟩ := List.exists_cons_of_ne_nil h.text_ne_nil
  rw [hlexeme, List.cons_append] at htext
  subst htext
  have hreach := h.reach_eq
  rw [hlexeme, List.length_cons, Nat.add_sub_cancel] at hreach
  rw [lexemes_cons, hreach, List.take_left, List.drop_left, ← hlexeme]

end Front

/-- Some lexeme stands at the front of every text that is not empty. -/
theorem exists_front (c : Char) (tail : Text) : ∃ lexeme rest, Front (c :: tail) lexeme rest := by
  -- the first character is tried against the classes in the order of `reach`
  cases hsingle : single? c with
  | some kind => exact ⟨_, _, .single hsingle⟩
  | none =>
  cases hoperator : operator? c with
  | some kinds =>
      by_cases hequal : tail.head? = some '='
      · obtain ⟨rest, rfl⟩ := List.head?_eq_some_iff.mp hequal
        exact ⟨_, _, .operatorEqual hoperator⟩
      · exact ⟨_, _, .operator hoperator hequal⟩
  | none =>
  by_cases hslash : c = '/'
  · subst hslash
    by_cases hcomment : tail.head? = some '/'
    · obtain ⟨rest, rfl⟩ := List.head?_eq_some_iff.mp hcomment
      obtain ⟨hrest, hbody, hstop⟩ := Text.exists_run isCommentChar rest
      rw [hrest]
      exact ⟨_, _, .comment hbody hstop⟩
    · exact ⟨_, _, .slash hcomment⟩
  by_cases hblank : isBlank c = true
  · exact ⟨_, _, .blank hblank⟩
  by_cases hfeed : c = '\n'
  · subst hfeed
    exact ⟨_, _, .lineFeed⟩
  by_cases hquote : c = '"'
  · subst hquote
    obtain ⟨htail, hbody, hstop⟩ := Text.exists_run isStringChar tail
    rw [htail]
    cases hend : tail.dropWhile isStringChar with
    | nil => rw [List.append_nil]; exact ⟨_, _, .unclosedAtEnd hbody⟩
    | cons d rest =>
        rw [hend] at hstop
        rcases eq_of_isStringChar_eq_false (hstop d rfl) with rfl | rfl
        · exact ⟨_, _, .string hbody⟩
        · exact ⟨_, _, .unclosed hbody⟩
  by_cases hdigit : isDigit c = true
  · -- a point goes with the number only if a digit follows it
    obtain ⟨htail, hdigits, hstop⟩ := Text.exists_run isDigit tail
    by_cases hpoint : StartsFraction (tail.dropWhile isDigit)
    · obtain ⟨d, more, hmore, hd⟩ := hpoint
      obtain ⟨hrest, hdecimals, hend⟩ := Text.exists_run isDigit more
      rw [htail, hmore, hrest]
      exact ⟨_, _, .fraction hdigit hdigits hd hdecimals hend⟩
    · rw [htail]
      exact ⟨_, _, .integer hdigit hdigits hstop hpoint⟩
  by_cases hword : isWordStart c = true
  · obtain ⟨htail, hbody, hstop⟩ := Text.exists_run isWordChar tail
    rw [htail]
    exact ⟨_, _, .word hword hbody hstop⟩
  rw [Bool.not_eq_true] at hblank hdigit hword
  have hordinary : IsOrdinary c := ⟨hsingle, hoperator, hslash, hblank, hfeed, hquote⟩
  exact ⟨_, _, .stray hordinary hdigit hword⟩

namespace Front

theorem length_lt {text rest : Text} {lexeme : Lexeme} (h : Front text lexeme rest) :
    rest.length < text.length := by
  have hpos := List.length_pos_iff.mpr h.text_ne_nil
  rw [h.text_append, List.length_append]
  omega

/-- Induction over a text, one lexeme at a time. -/
@[elab_as_elim]
theorem induction {motive : Text → Prop} (nil : motive [])
    (front : ∀ text lexeme rest, Front text lexeme rest → motive rest → motive text)
    (text : Text) : motive text := by
  match text with
  | [] => exact nil
  | c :: tail =>
      obtain ⟨lexeme, rest, h⟩ := exists_front c tail
      have hlt : rest.length < (c :: tail).length := h.length_lt
      exact front _ lexeme rest h (induction nil front rest)
termination_by text.length
decreasing_by exact hlt

end Front

/-- Every lexeme of a source stands at the front of what is left of it. -/
theorem exists_front_of_mem_lexemes {lexeme : Lexeme} {source : Text}
    (h : lexeme ∈ lexemes source) : ∃ text rest, Front text lexeme rest := by
  induction source using Front.induction with
  | nil => simp at h
  | front text first rest hfront ih =>
      rw [hfront.lexemes_eq] at h
      rcases List.mem_cons.mp h with rfl | hmem
      · exact ⟨text, rest, hfront⟩
      · exact ih hmem

end LoxLexer
