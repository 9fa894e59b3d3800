import LoxLexer.Proofs.Cursor.Round
import LoxLexer.Proofs.Lexing.WhiteSpace
import Mathlib.Algebra.BigOperators.Group.Finset.Basic

/-!
# Tokens spelt out again

A token carries the text that it was read from.  Cut out of its source and set between white space,
the text is read as the same token: nothing that stood around it is needed, and nothing is left over
or taken in.

* `Token.IsScanned` — a token of some source, whatever else the source holds.
* `spell` — the texts of tokens with separators between them.
* `Cursor.finish_spell` — the cursor reads the tokens back, on the lines that the separators make.
-/

namespace LoxLexer

/-! ### What is left of a lexeme in its token -/

/-- The token was found in a source, which may hold errors, and is not the end of file. -/
def Token.IsScanned (token : Token) : Prop :=
  token.kind ≠ .eof ∧
    ∃ source found, (Cursor.fresh source).finish.1 = .ok found ∧ token ∈ found

theorem Token.isScanned_of_mem {token : Token} (source : Text) (heof : token.kind ≠ .eof)
    (h : token ∈ tokens source) : token.IsScanned := by
  obtain ⟨d, hfinish, htokens, -⟩ := Cursor.finish_fresh source {}
  refine ⟨heof, source, d.tokens, congrArg Prod.fst hfinish, ?_⟩
  rw [htokens]
  exact h

/-- A scanned token is a lexeme that stood at the front of some text. -/
theorem Token.IsScanned.exists_front {token : Token} (h : token.IsScanned) :
    ∃ text lexeme rest line, Front text lexeme rest ∧ lexeme.token? line = some token := by
  obtain ⟨heof, source, found, hfinish, hmem⟩ := h
  obtain ⟨d, hd, htokens, -⟩ := Cursor.finish_fresh source {}
  rw [hd] at hfinish
  obtain rfl := Except.ok.inj hfinish
  have hsource : token ∈ tokensOf 1 (lexemes source) := by
    rw [htokens] at hmem
    exact hmem
  rw [tokensOf_eq] at hsource
  rcases List.mem_append.mp hsource with hscanned | hend
  · obtain ⟨lexeme, hlexeme, line, htoken⟩ := exists_lexeme_of_mem_scannedOf hscanned
    obtain ⟨text, rest, hfront⟩ := exists_front_of_mem_lexemes hlexeme
    exact ⟨text, lexeme, rest, line, hfront, htoken⟩
  · obtain rfl := List.mem_singleton.mp hend
    exact absurd rfl heof

/-- `Respells token lexeme`: wherever the text of the token stands before white space or at the
end, the lexeme there is this one, and it is the token again. -/
structure Respells (token : Token) (lexeme : Lexeme) : Prop where
  front : ∀ more, BreaksOff [] more → Front (token.lexeme ++ more) lexeme more
  text_eq : lexeme.text = token.lexeme
  token?_eq : ∀ line, lexeme.token? line = some { token with line }
  defect?_eq : lexeme.defect? = none
  lineFeeds_eq : Text.lineFeeds token.lexeme = 0

theorem Token.IsScanned.exists_respells {token : Token} (h : token.IsScanned) :
    ∃ lexeme, Respells token lexeme := by
  obtain ⟨text, lexeme, rest, line, hfront, htoken⟩ := h.exists_front
  obtain ⟨kind, hkind, rfl⟩ := Option.map_eq_some_iff.mp htoken
  -- a token is neither a comment nor an unclosed string, which alone care for more of what follows
  have hcomment : lexeme.shape ≠ .comment := by
    intro hshape
    simp [Lexeme.kind?, hshape] at hkind
  have hunclosed : lexeme.shape ≠ .unclosed := by
    intro hshape
    simp [Lexeme.kind?, hshape] at hkind
  have hfeed : lexeme.shape ≠ .lineFeed := by
    intro hshape
    simp [Lexeme.kind?, hshape] at hkind
  refine ⟨lexeme, ?_, rfl, ?_, Lexeme.defect?_eq_none hkind, ?_⟩
  · intro more hmore
    have hbreaks : BreaksOff rest more := by
      cases hmore with
      | atEnd => exact .atEnd rest
      | white hc _ more => exact .white hc rest more
    exact hfront.withRest hbreaks (absurd · hcomment) (absurd · hunclosed)
  · intro line
    rw [Lexeme.token?, hkind, Option.map_some]
  · exact List.count_eq_zero.mpr (hfront.lineFeed_notMem_text hfeed hunclosed)

/-! ### Texts of tokens and separators -/

/-- What may stand between two tokens: one or more characters of white space. -/
structure Separator where
  text : Text
  ne_nil : text ≠ []
  white : ∀ c ∈ text, c ∈ [' ', '\t', '\r', '\n']

namespace Separator

theorem isWhiteSpace (separator : Separator) : ∀ c ∈ separator.text, isWhiteSpace c = true := by
  have hall : ∀ c ∈ [' ', '\t', '\r', '\n'], LoxLexer.isWhiteSpace c = true :=
    Text.forall_mem_of_all (by decide)
  intro c hc
  exact hall c (separator.white c hc)

theorem breaksOff (separator : Separator) (rest : Text) :
    BreaksOff [] (separator.text ++ rest) := by
  obtain ⟨c, space, htext⟩ := List.exists_cons_of_ne_nil separator.ne_nil
  have hc := separator.isWhiteSpace c (htext ▸ List.mem_cons_self)
  rw [htext]
  exact .white hc [] (space ++ rest)

end Separator

namespace Respells

variable {token : Token} {lexeme : Lexeme}

theorem front_atEnd (h : Respells token lexeme) : Front token.lexeme lexeme [] := by
  have hfront := h.front [] (.atEnd [])
  rwa [List.append_nil] at hfront

theorem front_separator (h : Respells token lexeme) (separator : Separator) (rest : Text) :
    Front (token.lexeme ++ (separator.text ++ rest)) lexeme (separator.text ++ rest) :=
  h.front _ (separator.breaksOff rest)

end Respells

/-- The texts of tokens, with a separator between each two of them: the first of the separators
behind the first token, and so on. -/
def spell (separator : Nat → Separator) : List Token → Text
  | [] => []
  | [token] => token.lexeme
  | token :: next :: rest =>
    token.lexeme ++ ((separator 0).text ++ spell (fun i => separator (i + 1)) (next :: rest))

/-- How many line feeds the first `n` separators hold. -/
def feedsBefore (separator : Nat → Separator) (n : Nat) : Nat :=
  ∑ i ∈ Finset.range n, (separator i).text.lineFeeds

theorem feedsBefore_succ (separator : Nat → Separator) (n : Nat) :
    feedsBefore separator (n + 1) =
      (separator 0).text.lineFeeds + feedsBefore (fun i => separator (i + 1)) n := by
  rw [feedsBefore, Finset.sum_range_succ', Nat.add_comm]
  rfl

/-- The tokens on the lines where they stand when they are spelt out from `line` on. -/
def respelt (separator : Nat → Separator) (line : Int) (found : List Token) : List Token :=
  found.mapIdx fun i token => { token with line := line + feedsBefore separator i }

theorem respelt_cons (separator : Nat → Separator) (line : Int) (token : Token)
    (rest : List Token) :
    respelt separator line (token :: rest) =
      { token with line } ::
        respelt (fun i => separator (i + 1)) (line + (separator 0).text.lineFeeds) rest := by
  have hfirst : line + feedsBefore separator 0 = line := by simp [feedsBefore]
  have hlater (i : Nat) : line + feedsBefore separator (i + 1) =
      line + (separator 0).text.lineFeeds + feedsBefore (fun i => separator (i + 1)) i := by
    rw [feedsBefore_succ]
    omega
  rw [respelt, List.mapIdx_cons, respelt, hfirst]
  simp only [hlater]

section Spell

variable (separator : Nat → Separator) (found : List Token)
  (hfound : ∀ token ∈ found, token.IsScanned)

include hfound

/-- The tokens are read back one by one. -/
theorem scannedOf_spell (line : Int) :
    scannedOf line (lexemes (spell separator found)) = respelt separator line found := by
  -- token by token; behind each, the separators move up by one
  fun_induction spell separator found generalizing line with
  | case1 => simp [scannedOf, respelt]
  | case2 separator token =>
      obtain ⟨lexeme, hlexeme⟩ := (hfound token List.mem_cons_self).exists_respells
      rw [hlexeme.front_atEnd.lexemes_eq, lexemes_nil, scannedOf, hlexeme.token?_eq, respelt_cons]
      rfl
  | case3 separator token next rest ih =>
      obtain ⟨htoken, hrest⟩ := List.forall_mem_cons.mp hfound
      obtain ⟨lexeme, hlexeme⟩ := htoken.exists_respells
      have hfront := hlexeme.front_separator (separator 0)
        (spell (fun i => separator (i + 1)) (next :: rest))
      rw [hfront.lexemes_eq, scannedOf, hlexeme.token?_eq, hlexeme.text_eq, hlexeme.lineFeeds_eq,
        scannedOf_whiteSpace (separator 0).isWhiteSpace, ih hrest,
        respelt_cons separator line token (next :: rest)]
      simp

theorem errorsOf_spell (line : Int) (offset : Nat) :
    errorsOf line offset (lexemes (spell separator found)) = [] := by
  fun_induction spell separator found generalizing line offset with
  | case1 => simp [errorsOf]
  | case2 separator token =>
      obtain ⟨lexeme, hlexeme⟩ := (hfound token List.mem_cons_self).exists_respells
      rw [hlexeme.front_atEnd.lexemes_eq, lexemes_nil, errorsOf, hlexeme.defect?_eq]
      rfl
  | case3 separator token next rest ih =>
      obtain ⟨htoken, hrest⟩ := List.forall_mem_cons.mp hfound
      obtain ⟨lexeme, hlexeme⟩ := htoken.exists_respells
      have hfront := hlexeme.front_separator (separator 0)
        (spell (fun i => separator (i + 1)) (next :: rest))
      rw [hfront.lexemes_eq, errorsOf, hlexeme.defect?_eq,
        errorsOf_whiteSpace (separator 0).isWhiteSpace, ih hrest]
      rfl

end Spell

namespace Cursor

/-- Tokens of any sources, spelt out with any separators between them, are read back without an
error: as many, of the same kinds, texts and values, in the same order.  Each stands on the line
that the line feeds of the separators before it make. -/
theorem finish_spell (separator : Nat → Separator) (found : List Token)
    (hfound : ∀ token ∈ found, token.IsScanned) :
    ∃ d, (fresh (spell separator found)).finish = (.ok d.tokens, d) ∧ d.report.errors = [] ∧
      d.tokens =
        found.mapIdx (fun i token => { token with
          line := 1 + ((∑ j ∈ Finset.range i, (separator j).text.lineFeeds : Nat) : Int) }) ++
        [Token.endOfFile (1 + Text.lineFeeds (spell separator found))] := by
  obtain ⟨d, hfinish, htokens, herrors⟩ := finish_fresh (spell separator found) {}
  refine ⟨d, hfinish, ?_, ?_⟩
  · rw [herrors]
    exact errorsOf_spell separator found hfound 1 0
  · have hscanned := scannedOf_spell separator found hfound 1
    rw [htokens]
    show tokensOf 1 (lexemes (spell separator found)) = _
    rw [tokensOf_eq, hscanned, textOf_lexemes]
    rfl

/-- A string that holds slashes and stood behind a stray character, and a slash that stood below a
comment, on two lines. -/
theorem finish_spell_string_slash :
    (∀ token ∈ ([⟨.string, ['"', '/', '/', '"'], some (.text ['/', '/']), 1⟩,
      ⟨.slash, ['/'], none, 2⟩] : List Token), token.IsScanned) ∧
    ∃ d, (fresh ['"', '/', '/', '"', '\r', '\n', '/']).finish = (.ok d.tokens, d) ∧
      d.report.errors = [] ∧
      d.tokens = [⟨.string, ['"', '/', '/', '"'], some (.text ['/', '/']), 1⟩,
        ⟨.slash, ['/'], none, 2⟩, Token.endOfFile 2] := by
  have hbody : ∀ c ∈ ['/', '/'], isStringChar c = true := List.all_eq_true.mp (by decide)
  have hremark : ∀ c ∈ ['"'], isCommentChar c = true := List.all_eq_true.mp (by decide)
  have hordinary : IsOrdinary '@' := ⟨rfl, rfl, by decide, rfl, by decide, by decide⟩
  have hstring : lexemes ['@', '"', '/', '/', '"'] =
      [⟨.stray, ['@']⟩, ⟨.string, ['"', '/', '/', '"']⟩] := by
    have hquote : lexemes ['"', '/', '/', '"'] = ⟨.string, ['"', '/', '/', '"']⟩ :: lexemes [] :=
      (Front.string hbody).lexemes_eq
    rw [(Front.stray hordinary rfl rfl).lexemes_eq, hquote, lexemes_nil]
  have hslash : lexemes ['/', '/', '"', '\n', '/'] =
      [⟨.comment, ['/', '/', '"']⟩, ⟨.lineFeed, ['\n']⟩, ⟨.symbol .slash, ['/']⟩] := by
    have hcomment : lexemes ['/', '/', '"', '\n', '/'] =
        ⟨.comment, ['/', '/', '"']⟩ :: lexemes ['\n', '/'] :=
      (Front.comment hremark (Text.stops_cons (c := '\n') rfl ['/'])).lexemes_eq
    rw [hcomment, Front.lineFeed.lexemes_eq, (Front.slash (by simp)).lexemes_eq, lexemes_nil]
  have hfound : ∀ token ∈ ([⟨.string, ['"', '/', '/', '"'], some (.text ['/', '/']), 1⟩,
      ⟨.slash, ['/'], none, 2⟩] : List Token), token.IsScanned := by
    intro token htoken
    rcases List.mem_pair.mp htoken with rfl | rfl
    · refine Token.isScanned_of_mem ['@', '"', '/', '/', '"'] (by decide) ?_
      rw [LoxLexer.tokens, analyse, hstring]
      exact List.mem_cons_self
    · refine Token.isScanned_of_mem ['/', '/', '"', '\n', '/'] (by decide) ?_
      rw [LoxLexer.tokens, analyse, hslash]
      exact List.mem_cons_self
  refine ⟨hfound, ?_⟩
  obtain ⟨d, hfinish, herrors, htokens⟩ :=
    finish_spell (fun _ => ⟨['\r', '\n'], by decide, Text.forall_mem_of_all (by decide)⟩) _ hfound
  refine ⟨d, hfinish, herrors, htokens.trans ?_⟩
  simp [Text.lineFeeds, spell]

end Cursor
end LoxLexer
