import LoxLexer.Proofs.Grammar.Rule
import LoxLexer.Proofs.Lexing.LineFeed
import LoxLexer.Proofs.Text.Lines

/-!
# Sources without errors

Whether a source has an error can be told line by line, by a regular language that knows nothing of
tokens.  The language does not say where a comment begins: a slash is a plain character too.  The
lexer reads a line in one way only, and finds no error if the line can be read in any way.

* `cleanLine` — the lines without errors.
* `cons_mem_cleanLine`, `quote_mem_cleanLine` — what may follow the first character of such a line.
* `mem_cleanLine_of_front` — a lexeme taken off the front of a line.
* `finish_hadError` — a source has no error exactly if each of its lines is clean.
-/

namespace LoxLexer
namespace Grammar

open Computability

/-- The characters that mean no error by themselves. -/
def plain : Language Char :=
  oneOf {' ', '\t', '\r', '(', ')', '{', '}', ',', '.', '-', '+', ';', '*', '/', '!', '=', '<',
    '>'} + digit + letter

/-- A string, as it stands on one line. -/
def quoted : Language Char := oneOf {'"'} * (oneOf {c | c ≠ '"'})∗ * oneOf {'"'}

/-- Two slashes and anything. -/
def remark : Language Char := oneOf {'/'} * oneOf {'/'} * (oneOf Set.univ)∗

/-- The lines without errors: plain characters and strings, and perhaps a comment behind them. -/
def cleanLine : Language Char := (plain + quoted)∗ * (1 + remark)

/-! ### Membership by the first character -/

/-- The plain characters that are neither digits nor letters. -/
def marks : List Char :=
  [' ', '\t', '\r', '(', ')', '{', '}', ',', '.', '-', '+', ';', '*', '/', '!', '=', '<', '>']

/-- A character that means no error by itself. -/
def isPlain (c : Char) : Bool := c ∈ marks || isDigit c || isWordStart c

theorem mem_plain {text : Text} : text ∈ plain ↔ ∃ c, isPlain c = true ∧ text = [c] := by
  rw [plain, digit, letter, oneOf_add, oneOf_add, mem_oneOf]
  simp [isPlain, marks, isDigit_iff, isWordStart_iff]

theorem mem_quoted {text : Text} :
    text ∈ quoted ↔ ∃ body, '"' ∉ body ∧ text = '"' :: (body ++ ['"']) := by
  have hchars (body : Text) : body ∈ (oneOf {c | c ≠ '"'})∗ ↔ '"' ∉ body := by
    rw [mem_kstar_oneOf]
    constructor
    · intro hbody hmem
      exact hbody _ hmem rfl
    · rintro hbody c hc rfl
      exact hbody hc
  constructor
  · rintro ⟨_, ⟨_, ⟨_, rfl, rfl⟩, body, hbody, rfl⟩, _, ⟨_, rfl, rfl⟩, rfl⟩
    exact ⟨body, (hchars body).mp hbody, rfl⟩
  · rintro ⟨body, hbody, rfl⟩
    exact ⟨'"' :: body, ⟨['"'], ⟨'"', rfl, rfl⟩, body, (hchars body).mpr hbody, rfl⟩, ['"'],
      ⟨'"', rfl, rfl⟩, rfl⟩

theorem mem_remark {text : Text} : text ∈ remark ↔ ∃ body, text = '/' :: '/' :: body := by
  simp [remark, mul_assoc, mem_oneOf_mul, mem_kstar_oneOf]

/-- A clean line is empty, or a comment, or starts with a plain character or a string. -/
theorem mem_cleanLine {text : Text} :
    text ∈ cleanLine ↔
      text = [] ∨ (∃ body, text = '/' :: '/' :: body) ∨
        (∃ c rest, isPlain c = true ∧ rest ∈ cleanLine ∧ text = c :: rest) ∨
        ∃ body rest, '"' ∉ body ∧ rest ∈ cleanLine ∧ text = '"' :: (body ++ '"' :: rest) := by
  -- the star gives off one piece at the front
  have hunfold : cleanLine = (1 + remark) + (plain + quoted) * cleanLine := by
    rw [cleanLine, ← mul_assoc, ← one_add_mul, Language.one_add_self_mul_kstar_eq_kstar]
  have hmem : text ∈ cleanLine ↔ text ∈ (1 + remark) + (plain + quoted) * cleanLine := by
    rw [← hunfold]
  rw [hmem, Language.mem_add, Language.mem_add, Language.mem_one, mem_remark, or_assoc, add_mul,
    Language.mem_add]
  refine or_congr_right (or_congr_right (or_congr ?_ ?_))
  · constructor
    · rintro ⟨piece, hpiece, rest, hrest, rfl⟩
      obtain ⟨c, hc, rfl⟩ := mem_plain.mp hpiece
      exact ⟨c, rest, hc, hrest, rfl⟩
    · rintro ⟨c, rest, hc, hrest, rfl⟩
      exact ⟨[c], mem_plain.mpr ⟨c, hc, rfl⟩, rest, hrest, rfl⟩
  · constructor
    · rintro ⟨piece, hpiece, rest, hrest, rfl⟩
      obtain ⟨body, hbody, rfl⟩ := mem_quoted.mp hpiece
      exact ⟨body, rest, hbody, hrest, by simp⟩
    · rintro ⟨body, rest, hbody, hrest, rfl⟩
      exact ⟨_, mem_quoted.mpr ⟨body, hbody, rfl⟩, rest, hrest, by simp⟩

/-- The quote begins nothing but a string. -/
theorem isPlain_quote : isPlain '"' = false := by decide

/-- Behind a character that is no quote a clean line goes on, or it is a comment. -/
theorem cons_mem_cleanLine {c : Char} {rest : Text} (hc : c ≠ '"') :
    c :: rest ∈ cleanLine ↔
      isPlain c = true ∧ rest ∈ cleanLine ∨ c = '/' ∧ rest.head? = some '/' := by
  rw [mem_cleanLine]
  constructor
  · rintro (hnil | ⟨body, hbody⟩ | ⟨d, tail, hd, htail, htext⟩ | ⟨body, tail, -, -, htext⟩)
    · cases hnil
    · obtain ⟨rfl, rfl⟩ := List.cons.inj hbody
      exact .inr ⟨rfl, rfl⟩
    · obtain ⟨rfl, rfl⟩ := List.cons.inj htext
      exact .inl ⟨hd, htail⟩
    · exact absurd (List.cons.inj htext).1 hc
  · rintro (⟨hplain, hrest⟩ | ⟨rfl, hhead⟩)
    · exact .inr (.inr (.inl ⟨c, rest, hplain, hrest, rfl⟩))
    · obtain ⟨body, rfl⟩ := List.head?_eq_some_iff.mp hhead
      exact .inr (.inl ⟨body, rfl⟩)

/-- Behind a quote a clean line goes on with what closes it. -/
theorem quote_mem_cleanLine {rest : Text} :
    '"' :: rest ∈ cleanLine ↔
      ∃ body tail, '"' ∉ body ∧ tail ∈ cleanLine ∧ rest = body ++ '"' :: tail := by
  rw [mem_cleanLine]
  constructor
  · rintro (hnil | ⟨body, hbody⟩ | ⟨d, tail, hd, -, htext⟩ | ⟨body, tail, hbody, htail, htext⟩)
    · cases hnil
    · exact absurd (List.cons.inj hbody).1 (by decide)
    · rw [← (List.cons.inj htext).1, isPlain_quote] at hd
      contradiction
    · exact ⟨body, tail, hbody, htail, (List.cons.inj htext).2⟩
  · rintro ⟨body, tail, hbody, htail, rfl⟩
    exact .inr (.inr (.inr ⟨body, tail, hbody, htail, rfl⟩))

/-! ### Lexemes of clean lines -/

/-- A plain character with which no comment begins. -/
def isSolid (c : Char) : Bool := isPlain c && c ≠ '/'

theorem solid_mem_cleanLine {c : Char} {rest : Text} (hc : isSolid c = true) :
    c :: rest ∈ cleanLine ↔ rest ∈ cleanLine := by
  obtain ⟨hplain, hslash⟩ := (Bool.and_eq_true _ _).mp hc
  have hquote : c ≠ '"' := by
    rintro rfl
    rw [isPlain_quote] at hplain
    contradiction
  rw [cons_mem_cleanLine hquote]
  simp [hplain, of_decide_eq_true hslash]

/-- Characters with which no comment begins leave a line as clean as it is behind them. -/
theorem append_mem_cleanLine {text rest : Text} (htext : ∀ c ∈ text, isSolid c = true) :
    text ++ rest ∈ cleanLine ↔ rest ∈ cleanLine := by
  induction text with
  | nil => rfl
  | cons c text ih =>
      obtain ⟨hc, htext⟩ := List.forall_mem_cons.mp htext
      rw [List.cons_append, solid_mem_cleanLine hc, ih htext]

theorem isSolid_of_isDigit {c : Char} (h : isDigit c = true) : isSolid c = true := by
  have hslash := (isOrdinary_of_isDigit h).slash
  simp [isSolid, isPlain, h, hslash]

theorem isSolid_of_isWordStart {c : Char} (h : isWordStart c = true) : isSolid c = true := by
  have hslash := (isOrdinary_of_isWordStart h).slash
  simp [isSolid, isPlain, h, hslash]

theorem isSolid_of_isWordChar {c : Char} (h : isWordChar c = true) : isSolid c = true := by
  rcases (Bool.or_eq_true _ _).mp h with hstart | hdigit
  · exact isSolid_of_isWordStart hstart
  · exact isSolid_of_isDigit hdigit

/-- An ordinary character is plain only if a number or a word starts with it. -/
theorem isPlain_eq_false {c : Char} (hc : IsOrdinary c) (hdigit : isDigit c = false)
    (hword : isWordStart c = false) : isPlain c = false := by
  have hsub : marks ⊆ meaningful := by decide
  have hmarks : c ∉ marks := fun hmem => hc.notMem_meaningful (hsub hmem)
  rw [isPlain, hdigit, hword, decide_eq_false hmarks]
  rfl

theorem not_mem_quote {body : Text} (hbody : ∀ c ∈ body, isStringChar c = true) : '"' ∉ body := by
  intro hmem
  exact absurd (hbody _ hmem) (by decide)

/-- A line that a lexeme stands at the front of is clean if the lexeme is no error and what is
behind it is clean. -/
theorem mem_cleanLine_of_front {text rest : Text} {lexeme : Lexeme}
    (h : Front text lexeme rest) (hfeed : '\n' ∉ text) :
    text ∈ cleanLine ↔ lexeme.defect? = none ∧ rest ∈ cleanLine := by
  -- most lexemes consist of characters with which no comment begins
  have hsolid (hall : ∀ c ∈ lexeme.text, isSolid c = true) (hdefect : lexeme.defect? = none) :
      text ∈ cleanLine ↔ lexeme.defect? = none ∧ rest ∈ cleanLine := by
    rw [h.text_append, append_mem_cleanLine hall]
    exact (and_iff_right hdefect).symm
  have htried (part : List Char) (hpart : part.all isSolid = true) {c : Char}
      (hc : c ∈ part) : ∀ d ∈ [c], isSolid d = true := by
    intro d hd
    rw [List.mem_singleton.mp hd]
    exact List.all_eq_true.mp hpart c hc
  have hoperators : ∀ d ∈ ['!', '=', '<', '>'], isSolid d = true :=
    List.all_eq_true.mp (by decide)
  cases h with
  | blank hc => exact hsolid (htried _ (by decide) (mem_of_isBlank hc)) rfl
  | lineFeed => exact absurd List.mem_cons_self hfeed
  | @comment body rest hbody hrest =>
      have hnil : rest = [] := by
        cases rest with
        | nil => rfl
        | cons d rest =>
            have hd : d = '\n' := by simpa [isCommentChar] using hrest d rfl
            exact absurd (by simp [hd]) hfeed
      subst hnil
      have hline : '/' :: '/' :: (body ++ []) ∈ cleanLine :=
        mem_cleanLine.mpr (.inr (.inl ⟨_, rfl⟩))
      exact iff_of_true hline ⟨rfl, mem_cleanLine.mpr (.inl rfl)⟩
  | single hc => exact hsolid (htried _ (by decide) (mem_of_single? hc)) rfl
  | slash hrest =>
      -- it is a plain character, and no comment begins here because the next one is no slash
      have hplain : isPlain '/' = true := by decide
      rw [cons_mem_cleanLine (by decide)]
      simp [hplain, hrest, Lexeme.defect?]
  | operator hc hrest => exact hsolid (htried _ (by decide) (mem_of_operator? hc)) rfl
  | operatorEqual hc =>
      have hfirst := hoperators _ (mem_of_operator? hc)
      exact hsolid (by simp [hfirst, hoperators]) rfl
  | @string body rest hbody =>
      rw [quote_mem_cleanLine]
      constructor
      · rintro ⟨other, tail, hother, htail, htext⟩
        -- both strings end at the first quote
        obtain ⟨-, htail'⟩ := Text.run_unique (Text.decide_ne_of_notMem (not_mem_quote hbody))
          (Text.stops_cons (c := '"') (by decide) rest) (Text.decide_ne_of_notMem hother)
          (Text.stops_cons (by decide) tail) htext
        rw [(List.cons.inj htail').2]
        exact ⟨rfl, htail⟩
      · rintro ⟨-, hrest⟩
        exact ⟨body, rest, not_mem_quote hbody, hrest, rfl⟩
  | unclosed hbody => exact absurd (by simp) hfeed
  | unclosedAtEnd hbody =>
      rw [quote_mem_cleanLine]
      refine iff_of_false ?_ (by simp [Lexeme.defect?])
      rintro ⟨other, tail, -, -, rfl⟩
      exact not_mem_quote hbody (by simp)
  | integer hc hdigits hrest hpoint =>
      exact hsolid (List.forall_mem_cons.mpr ⟨isSolid_of_isDigit hc, fun d hd =>
        isSolid_of_isDigit (hdigits d hd)⟩) rfl
  | @fraction c d digits decimals rest hc hdigits hd hdecimals hrest =>
      have hpoint : isSolid '.' = true := by decide
      refine hsolid (List.forall_mem_cons.mpr ⟨isSolid_of_isDigit hc, ?_⟩) rfl
      refine List.forall_mem_append.mpr ⟨fun e he => isSolid_of_isDigit (hdigits e he), ?_⟩
      refine List.forall_mem_cons.mpr ⟨hpoint, ?_⟩
      refine List.forall_mem_cons.mpr ⟨isSolid_of_isDigit hd, fun e he => ?_⟩
      exact isSolid_of_isDigit (hdecimals e he)
  | word hc hbody hrest =>
      exact hsolid (List.forall_mem_cons.mpr ⟨isSolid_of_isWordStart hc, fun d hd =>
        isSolid_of_isWordChar (hbody d hd)⟩) rfl
  | stray hc hdigit hword =>
      rw [cons_mem_cleanLine hc.quote, isPlain_eq_false hc hdigit hword]
      simp [Lexeme.defect?, hc.slash]

/-! ### Sources without errors -/

theorem errorsOf_eq_nil_iff {line : Int} {offset : Nat} {found : List Lexeme} :
    errorsOf line offset found = [] ↔ ∀ lexeme ∈ found, lexeme.defect? = none := by
  induction found generalizing line offset with
  | nil => simp [errorsOf]
  | cons lexeme rest ih =>
      rw [errorsOf, List.append_eq_nil_iff, ih, List.forall_mem_cons]
      cases lexeme.defect? <;> simp

/-- A line is clean if the lexer finds no error in it. -/
theorem mem_cleanLine_iff {line : Text} (hfeed : '\n' ∉ line) :
    line ∈ cleanLine ↔ (analyse line).report.errors = [] := by
  show line ∈ cleanLine ↔ errorsOf 1 0 (lexemes line) = []
  rw [errorsOf_eq_nil_iff]
  induction line using Front.induction with
  | nil =>
      rw [lexemes_nil, mem_cleanLine]
      simp
  | front text lexeme rest hfront ih =>
      have hrest : '\n' ∉ rest := by
        intro hmem
        exact hfeed (hfront.text_append ▸ List.mem_append_right lexeme.text hmem)
      rw [mem_cleanLine_of_front hfront hfeed, ih hrest, hfront.lexemes_eq, List.forall_mem_cons]

theorem errors_eq_nil_iff (source : Text) :
    (analyse source).report.errors = [] ↔ ∀ line ∈ Text.split '\n' source, line ∈ cleanLine := by
  -- line by line: a line feed parts the errors of a source from each other
  induction source using Text.induction_lines with
  | last line hline =>
      rw [Text.split_last hline, List.forall_mem_singleton, mem_cleanLine_iff hline]
  | next line rest hline ih =>
      obtain ⟨scanned, -, -, herrors⟩ := analyse_lineFeed line rest
      rw [herrors, List.append_eq_nil_iff, List.map_eq_nil_iff, ih, ← mem_cleanLine_iff hline,
        Text.split_line hline, List.forall_mem_cons]

open Cursor (fresh)

/-- The lexer finds no error in a source exactly if each of its lines is clean. -/
theorem finish_hadError (source : Text) :
    ∃ d, (fresh source).finish = (.ok d.tokens, d) ∧
      tokensAndVerdict source = (d.tokens, d.report.hadError) ∧
      (d.report.hadError = false ↔ ∀ line ∈ Text.split '\n' source, line ∈ cleanLine) := by
  obtain ⟨d, hfinish, htokens, herrors⟩ := Cursor.finish_fresh source {}
  have hreport : d.report = (analyse source).report := congrArg Report.mk herrors
  refine ⟨d, hfinish, ?_, ?_⟩
  · rw [tokensAndVerdict, htokens, hreport]
  · rw [hreport, ← errors_eq_nil_iff, Report.hadError, Bool.not_eq_false', List.isEmpty_iff]

end Grammar
end LoxLexer
