import LoxLexer.Proofs.Grammar.Rule
import LoxLexer.Proofs.Lexeme.Front

/-!
# Longest matches

The lexer decides by the first character and counts; the grammar asks for the longest prefix that
any rule matches.  Both give the same first piece of every text.

* `LongestMatch` — a rule matches a prefix, and no rule matches a longer one.
* `First` — the first piece of a text by the grammar, with its rule if it has one.
* `First.unique` — a text has one first piece.
* `first_of_front` — it is the lexeme at the front of the text, and counts as the same token.
-/

namespace LoxLexer
namespace Grammar

/-- The rule matches the piece at the front of the text, and no rule matches a longer one. -/
structure LongestMatch (text : Text) (rule : Rule) (piece : Text) : Prop where
  front : piece <+: text
  matched : piece ∈ rule.language
  longest : ∀ (other : Rule) (piece' : Text), piece' <+: text → piece' ∈ other.language →
    piece'.length ≤ piece.length

/-- No rule matches a prefix of the text. -/
def NoMatch (text : Text) : Prop :=
  ∀ (rule : Rule) (piece : Text), piece <+: text → piece ∉ rule.language

/-- `First text rule? piece`: the first piece of the text.  It is the longest match, if there is
one.  Otherwise it has no rule: from a quote it goes up to and including the next line feed, or to
the end; any other character stands alone. -/
inductive First : Text → Option Rule → Text → Prop
  | matched {text piece : Text} {rule : Rule} (h : LongestMatch text rule piece) :
      First text (some rule) piece
  | unclosed {body rest : Text} (hnone : NoMatch ('"' :: (body ++ '\n' :: rest)))
      (hbody : '\n' ∉ body) : First ('"' :: (body ++ '\n' :: rest)) none ('"' :: (body ++ ['\n']))
  | unclosedAtEnd {body : Text} (hnone : NoMatch ('"' :: body)) (hbody : '\n' ∉ body) :
      First ('"' :: body) none ('"' :: body)
  | stray {c : Char} {rest : Text} (hnone : NoMatch (c :: rest)) (hquote : c ≠ '"') :
      First (c :: rest) none [c]

/-! ### First characters tell the rules apart -/

/-- The characters that a text of a rule starts with. -/
def Rule.opens (rule : Rule) (c : Char) : Bool :=
  match rule with
  | whiteSpace => isBlank c || c = '\n'
  | comment => c = '/'
  | punctuation => c ∈ ['(', ')', '{', '}', ',', '.', '-', '+', ';', '*', '/']
  | operator => c ∈ ['!', '=', '<', '>']
  | string => c = '"'
  | number => isDigit c
  | word => isWordStart c

theorem Rule.exists_cons {rule : Rule} {piece : Text} (h : piece ∈ rule.language) :
    ∃ c rest, piece = c :: rest ∧ rule.opens c = true := by
  cases rule with
  | whiteSpace =>
      obtain ⟨c, hc, rfl⟩ := h
      refine ⟨c, [], rfl, ?_⟩
      rcases hc with rfl | rfl | rfl | rfl <;> rfl
  | comment =>
      obtain ⟨body, -, rfl⟩ := mem_comment.mp h
      exact ⟨'/', _, rfl, rfl⟩
  | punctuation =>
      obtain ⟨c, hc, rfl⟩ := h
      exact ⟨c, [], rfl, by simpa [Rule.opens] using hc⟩
  | operator =>
      obtain ⟨c, hc, rfl | rfl⟩ := mem_operator.mp h
      · exact ⟨c, [], rfl, by simpa [Rule.opens] using hc⟩
      · exact ⟨c, ['='], rfl, by simpa [Rule.opens] using hc⟩
  | string =>
      obtain ⟨body, -, rfl⟩ := mem_string.mp h
      exact ⟨'"', _, rfl, rfl⟩
  | number =>
      obtain ⟨c, digits, hc, -, rfl | ⟨d, decimals, -, -, rfl⟩⟩ := mem_number.mp h
      · exact ⟨c, _, rfl, hc⟩
      · exact ⟨c, _, rfl, hc⟩
  | word =>
      obtain ⟨c, body, hc, -, rfl⟩ := mem_word.mp h
      exact ⟨c, body, rfl, hc⟩

/-- A rule that matches a prefix may start with the first character of the text. -/
theorem Rule.opens_of_mem {rule : Rule} {piece tail : Text} {c : Char}
    (hpiece : piece <+: c :: tail) (h : piece ∈ rule.language) : rule.opens c = true := by
  obtain ⟨d, rest, rfl, hd⟩ := Rule.exists_cons h
  obtain ⟨rfl, -⟩ := List.cons_prefix_cons.mp hpiece
  exact hd

/-- A character that is not meaningful starts numbers and words only. -/
theorem Rule.opens_of_notMem {rule : Rule} {c : Char} (hc : c ∉ meaningful)
    (h : rule.opens c = true) :
    rule = .number ∧ isDigit c = true ∨ rule = .word ∧ isWordStart c = true := by
  have hsub (part : List Char) (hpart : part ⊆ meaningful) : c ∉ part := fun hmem =>
    hc (hpart hmem)
  cases rule with
  | whiteSpace =>
      have hmem : c ∈ ['\n', ' ', '\t', '\r'] := by
        rcases Bool.or_eq_true _ _ ▸ h with hblank | hfeed
        · exact List.mem_cons_of_mem _ (mem_of_isBlank hblank)
        · simp [of_decide_eq_true hfeed]
      exact absurd hmem (hsub _ (by decide))
  | comment =>
      have hmem : c ∈ ['/'] := by simp [of_decide_eq_true h]
      exact absurd hmem (hsub _ (by decide))
  | punctuation => exact absurd (of_decide_eq_true h) (hsub _ (by decide))
  | operator => exact absurd (of_decide_eq_true h) (hsub _ (by decide))
  | string =>
      have hmem : c ∈ ['"'] := by simp [of_decide_eq_true h]
      exact absurd hmem (hsub _ (by decide))
  | number => exact .inl ⟨rfl, h⟩
  | word => exact .inr ⟨rfl, h⟩

/-- The rules, so that the finitely many meaningful characters can be tried with each. -/
def Rule.all : List Rule := [whiteSpace, comment, punctuation, operator, string, number, word]

theorem Rule.mem_all (rule : Rule) : rule ∈ Rule.all := by cases rule <;> decide

/-- No two rules start with the same character, except for the slash. -/
theorem Rule.eq_of_opens {rule rule' : Rule} {c : Char} (h : rule.opens c = true)
    (h' : rule'.opens c = true) (hslash : c ≠ '/') : rule = rule' := by
  by_cases hc : c ∈ meaningful
  · have hall : ∀ d ∈ meaningful, ∀ r ∈ Rule.all, ∀ r' ∈ Rule.all,
        r.opens d = true → r'.opens d = true → d ≠ '/' → r = r' :=
      Text.forall_mem_of_all (by decide)
    exact hall c hc rule rule.mem_all rule' rule'.mem_all h h' hslash
  · rcases Rule.opens_of_notMem hc h with ⟨rfl, hdigit⟩ | ⟨rfl, hword⟩ <;>
      rcases Rule.opens_of_notMem hc h' with ⟨rfl, hdigit'⟩ | ⟨rfl, hword'⟩
    · rfl
    · rw [isDigit_eq_false hword'] at hdigit
      contradiction
    · rw [isDigit_eq_false hword] at hdigit'
      contradiction
    · rfl

/-! ### Which match is the longest -/

section Longest

variable {rule : Rule} {text piece : Text}

/-- Away from the slash, a match need only be compared with the matches of its own rule. -/
theorem LongestMatch.of_rule (rest : Text) (htext : text = piece ++ rest)
    (hmem : piece ∈ rule.language) (hslash : text.head? ≠ some '/')
    (hlongest : ∀ piece' rest', piece' ∈ rule.language → piece' ++ rest' = text →
      piece'.length ≤ piece.length) : LongestMatch text rule piece := by
  refine ⟨⟨rest, htext.symm⟩, hmem, fun other piece' hfront hmem' => ?_⟩
  obtain ⟨rest', htext'⟩ := hfront
  obtain ⟨c, tail, rfl, hc⟩ := Rule.exists_cons hmem
  obtain ⟨d, tail', rfl, hd⟩ := Rule.exists_cons hmem'
  have hfirst : d = c := (List.cons.inj (htext'.trans htext)).1
  subst hfirst
  have hother : other = rule := by
    refine Rule.eq_of_opens hd hc ?_
    rintro rfl
    exact hslash (htext ▸ rfl)
  subst hother
  exact hlongest _ _ hmem' htext'

/-- Where no rule may start, none matches. -/
theorem NoMatch.of_opens {c : Char} {tail : Text}
    (h : ∀ rule : Rule, rule.opens c = false) : NoMatch (c :: tail) := by
  intro rule piece hfront hmem
  have hopens := Rule.opens_of_mem hfront hmem
  rw [h rule] at hopens
  contradiction

theorem length_of_oneOf {chars : Set Char} (h : piece ∈ oneOf chars) : piece.length = 1 := by
  obtain ⟨c, -, rfl⟩ := h
  rfl

/-- White space and punctuation are matched one character at a time. -/
theorem LongestMatch.oneOf {c : Char} {chars : Set Char} (hrule : rule.language = oneOf chars)
    (hc : c ∈ chars) (hslash : c ≠ '/') (rest : Text) : LongestMatch (c :: rest) rule [c] := by
  refine .of_rule _ rfl (hrule ▸ ⟨c, hc, rfl⟩) (by simpa using hslash) fun piece' rest' hmem _ => ?_
  rw [hrule] at hmem
  exact (length_of_oneOf hmem).le

end Longest

section Fronts

variable {c : Char} {text body rest : Text}

theorem Rule.eq_of_opens_slash {rule : Rule} (h : rule.opens '/' = true) :
    rule = .comment ∨ rule = .punctuation := by
  have hall : ∀ r ∈ Rule.all, r.opens '/' = true → r = .comment ∨ r = .punctuation := by decide
  exact hall rule rule.mem_all h

theorem longestMatch_slash (hrest : rest.head? ≠ some '/') :
    LongestMatch ('/' :: rest) .punctuation ['/'] := by
  refine ⟨⟨rest, rfl⟩, ⟨'/', by simp, rfl⟩, fun other piece hfront hmem => ?_⟩
  rcases Rule.eq_of_opens_slash (Rule.opens_of_mem hfront hmem) with rfl | rfl
  · obtain ⟨comment, -, rfl⟩ := mem_comment.mp hmem
    obtain ⟨tail, htail⟩ := hfront
    exact absurd (by simp [← (List.cons.inj htail).2]) hrest
  · exact (length_of_oneOf hmem).le

theorem longestMatch_comment (hbody : ∀ d ∈ body, isCommentChar d = true)
    (hrest : Text.Stops isCommentChar rest) :
    LongestMatch ('/' :: '/' :: (body ++ rest)) .comment ('/' :: '/' :: body) := by
  refine ⟨⟨rest, rfl⟩, mem_comment.mpr ⟨body, hbody, rfl⟩, fun other piece hfront hmem => ?_⟩
  rcases Rule.eq_of_opens_slash (Rule.opens_of_mem hfront hmem) with rfl | rfl
  · obtain ⟨comment, hcomment, rfl⟩ := mem_comment.mp hmem
    obtain ⟨tail, htail⟩ := hfront
    have hlength := Text.length_le_of_run tail hrest hcomment (by simpa using htail)
    simpa using hlength
  · rw [length_of_oneOf hmem]
    simp

theorem longestMatch_operator (hc : c ∈ ['!', '=', '<', '>']) (hrest : rest.head? ≠ some '=') :
    LongestMatch (c :: rest) .operator [c] := by
  have hslash : c ≠ '/' := by
    rintro rfl
    exact absurd hc (by decide)
  refine .of_rule _ rfl (mem_operator.mpr ⟨c, hc, .inl rfl⟩) (by simpa using hslash)
    fun piece' rest' hmem htext => ?_
  obtain ⟨d, -, rfl | rfl⟩ := mem_operator.mp hmem
  · simp
  · exact absurd (by simp [← (List.cons.inj htext).2]) hrest

theorem longestMatch_operatorEqual (hc : c ∈ ['!', '=', '<', '>']) (rest : Text) :
    LongestMatch (c :: '=' :: rest) .operator [c, '='] := by
  have hslash : c ≠ '/' := by
    rintro rfl
    exact absurd hc (by decide)
  refine .of_rule _ rfl (mem_operator.mpr ⟨c, hc, .inr rfl⟩) (by simpa using hslash)
    fun piece' rest' hmem htext => ?_
  obtain ⟨d, -, rfl | rfl⟩ := mem_operator.mp hmem
  · simp
  · simp

theorem longestMatch_string (hbody : ∀ d ∈ body, isStringChar d = true) (rest : Text) :
    LongestMatch ('"' :: (body ++ '"' :: rest)) .string ('"' :: (body ++ ['"'])) := by
  refine .of_rule rest (by simp) (mem_string.mpr ⟨body, hbody, rfl⟩) (by simp)
    fun piece' rest' hmem htext => ?_
  obtain ⟨other, hother, rfl⟩ := mem_string.mp hmem
  have hquote : isStringChar '"' = false := by decide
  have hlength := Text.length_le_of_run ('"' :: rest') (Text.stops_cons hquote rest) hother
    (by simpa using htext)
  simpa using hlength

/-- Without a closing quote on its line no string is matched. -/
theorem noMatch_quote (hbody : ∀ d ∈ body, isStringChar d = true)
    (hrest : Text.Stops isStringChar rest) (hquote : rest.head? ≠ some '"') :
    NoMatch ('"' :: (body ++ rest)) := by
  intro rule piece hfront hmem
  have hrule : ∀ r ∈ Rule.all, r.opens '"' = true → r = .string := by decide
  obtain rfl := hrule rule rule.mem_all (Rule.opens_of_mem hfront hmem)
  obtain ⟨other, hother, rfl⟩ := mem_string.mp hmem
  obtain ⟨tail, htail⟩ := hfront
  have hstop : isStringChar '"' = false := by decide
  -- the string that would match and the text would end their runs at the same character
  have htext : other ++ '"' :: tail = body ++ rest := by simpa using htail
  have hsplit := Text.run_unique hother (Text.stops_cons hstop tail) hbody hrest htext
  rw [← hsplit.2] at hquote
  exact hquote rfl

theorem longestMatch_integer {digits : Text} (hc : isDigit c = true)
    (hdigits : ∀ d ∈ digits, isDigit d = true) (hrest : Text.Stops isDigit rest)
    (hpoint : ¬ StartsFraction rest) :
    LongestMatch (c :: (digits ++ rest)) .number (c :: digits) := by
  have hslash := (isOrdinary_of_isDigit hc).slash
  refine .of_rule _ rfl (mem_number.mpr ⟨c, digits, hc, hdigits, .inl rfl⟩) (by simpa using hslash)
    fun piece' rest' hmem htext => ?_
  obtain ⟨e, other, -, hother, rfl | ⟨d, decimals, hd, -, rfl⟩⟩ := mem_number.mp hmem
  · have hlength := Text.length_le_of_run rest' hrest hother (List.cons.inj htext).2
    simpa using hlength
  · -- a match with a point would need the digit behind the point that the text does not have
    have hstop : isDigit '.' = false := by decide
    have hsplit := Text.run_unique hother
      (Text.stops_cons hstop (d :: (decimals ++ rest'))) hdigits hrest
      (by simpa using (List.cons.inj htext).2)
    exact absurd ⟨d, _, hsplit.2.symm, hd⟩ hpoint

theorem longestMatch_fraction {d : Char} {digits decimals : Text} (hc : isDigit c = true)
    (hdigits : ∀ d ∈ digits, isDigit d = true) (hd : isDigit d = true)
    (hdecimals : ∀ d ∈ decimals, isDigit d = true) (hrest : Text.Stops isDigit rest) :
    LongestMatch (c :: (digits ++ '.' :: d :: (decimals ++ rest))) .number
      (c :: (digits ++ '.' :: d :: decimals)) := by
  have hslash := (isOrdinary_of_isDigit hc).slash
  have hstop : isDigit '.' = false := by decide
  refine .of_rule rest (by simp)
    (mem_number.mpr ⟨c, digits, hc, hdigits, .inr ⟨d, decimals, hd, hdecimals, rfl⟩⟩)
    (by simpa using hslash) fun piece' rest' hmem htext => ?_
  obtain ⟨e, other, -, hother, rfl | ⟨d', decimals', -, hdecimals', rfl⟩⟩ := mem_number.mp hmem
  · have hlength := Text.length_le_of_run rest' (Text.stops_cons hstop _) hother
      (List.cons.inj htext).2
    simp only [List.length_cons, List.length_append]
    omega
  · have hsplit := Text.run_unique hother (Text.stops_cons hstop (d' :: (decimals' ++ rest')))
      hdigits (Text.stops_cons hstop (d :: (decimals ++ rest)))
      (by simpa using (List.cons.inj htext).2)
    have hmore : decimals' ++ rest' = decimals ++ rest := by
      simpa using (List.cons.inj (List.cons.inj hsplit.2).2).2
    have hlength := Text.length_le_of_run rest' hrest hdecimals' hmore
    rw [hsplit.1]
    simp only [List.length_cons, List.length_append]
    omega

theorem longestMatch_word (hc : isWordStart c = true) (hbody : ∀ d ∈ body, isWordChar d = true)
    (hrest : Text.Stops isWordChar rest) :
    LongestMatch (c :: (body ++ rest)) .word (c :: body) := by
  have hslash := (isOrdinary_of_isWordStart hc).slash
  refine .of_rule _ rfl (mem_word.mpr ⟨c, body, hc, hbody, rfl⟩) (by simpa using hslash)
    fun piece' rest' hmem htext => ?_
  obtain ⟨d, other, -, hother, rfl⟩ := mem_word.mp hmem
  have hlength := Text.length_le_of_run rest' hrest hother (List.cons.inj htext).2
  simpa using hlength

/-- An ordinary character that starts neither a number nor a word is matched by no rule. -/
theorem noMatch_stray (hc : IsOrdinary c) (hdigit : isDigit c = false)
    (hword : isWordStart c = false) (rest : Text) : NoMatch (c :: rest) := by
  refine .of_opens fun rule => Bool.eq_false_iff.mpr fun hopens => ?_
  rcases Rule.opens_of_notMem hc.notMem_meaningful hopens with ⟨-, hc'⟩ | ⟨-, hc'⟩
  · exact Bool.eq_false_iff.mp hdigit hc'
  · exact Bool.eq_false_iff.mp hword hc'

end Fronts

/-! ### The first piece -/

/-- A piece with a rule and a piece without one do not stand at the front of the same text. -/
theorem LongestMatch.not_noMatch {text piece : Text} {rule : Rule}
    (h : LongestMatch text rule piece) : ¬ NoMatch text := fun hnone =>
  hnone rule piece h.front h.matched

/-- No text is matched by two rules. -/
theorem Rule.eq_of_mem {rule rule' : Rule} {piece : Text} (h : piece ∈ rule.language)
    (h' : piece ∈ rule'.language) : rule = rule' := by
  obtain ⟨c, rest, rfl, hc⟩ := Rule.exists_cons h
  have hc' : rule'.opens c = true := Rule.opens_of_mem List.prefix_rfl h'
  by_cases hslash : c = '/'
  · subst hslash
    -- a comment has two characters at least and punctuation has one
    have hlength {body : Text} (hmem : body ∈ Rule.comment.language) : body.length ≠ 1 := by
      obtain ⟨more, -, rfl⟩ := mem_comment.mp hmem
      simp
    rcases Rule.eq_of_opens_slash hc with rfl | rfl <;>
      rcases Rule.eq_of_opens_slash hc' with rfl | rfl
    · rfl
    · exact absurd (length_of_oneOf h') (hlength h)
    · exact absurd (length_of_oneOf h) (hlength h')
    · rfl
  · exact Rule.eq_of_opens hc hc' hslash

theorem LongestMatch.unique {text piece piece' : Text} {rule rule' : Rule}
    (h : LongestMatch text rule piece) (h' : LongestMatch text rule' piece') :
    rule = rule' ∧ piece = piece' := by
  have hle := h'.longest rule piece h.front h.matched
  have hge := h.longest rule' piece' h'.front h'.matched
  have hpiece : piece = piece' :=
    (List.prefix_of_prefix_length_le h.front h'.front hle).eq_of_length (Nat.le_antisymm hle hge)
  subst hpiece
  exact ⟨Rule.eq_of_mem h.matched h'.matched, rfl⟩

theorem First.unique {text piece piece' : Text} {rule? rule?' : Option Rule}
    (h : First text rule? piece) (h' : First text rule?' piece') :
    rule? = rule?' ∧ piece = piece' := by
  have hrun {body body' rest rest' : Text} (hbody : '\n' ∉ body) (hbody' : '\n' ∉ body')
      (heq : body ++ '\n' :: rest = body' ++ '\n' :: rest') : body = body' := by
    have hstop : isCommentChar '\n' = false := by decide
    exact (Text.run_unique (Text.decide_ne_of_notMem hbody) (Text.stops_cons hstop rest)
      (Text.decide_ne_of_notMem hbody') (Text.stops_cons hstop rest') heq).1
  generalize htext : text = text' at h'
  -- either both pieces have a rule or none has; without one the first character decides
  cases h with
  | matched h =>
      cases h' with
      | matched h' =>
          obtain ⟨rfl, rfl⟩ := h.unique (htext ▸ h')
          exact ⟨rfl, rfl⟩
      | unclosed hnone' _ => exact absurd (htext ▸ hnone') h.not_noMatch
      | unclosedAtEnd hnone' _ => exact absurd (htext ▸ hnone') h.not_noMatch
      | stray hnone' _ => exact absurd (htext ▸ hnone') h.not_noMatch
  | unclosed hnone hbody =>
      cases h' with
      | matched h' => exact absurd (htext ▸ hnone) h'.not_noMatch
      | unclosed _ hbody' => exact ⟨rfl, by rw [hrun hbody hbody' (List.cons.inj htext).2]⟩
      | unclosedAtEnd _ hbody' => exact absurd (by simp [← (List.cons.inj htext).2]) hbody'
      | stray _ hquote' => exact absurd (List.cons.inj htext).1.symm hquote'
  | unclosedAtEnd hnone hbody =>
      cases h' with
      | matched h' => exact absurd (htext ▸ hnone) h'.not_noMatch
      | unclosed _ _ => exact absurd (by simp [(List.cons.inj htext).2]) hbody
      | unclosedAtEnd _ _ => exact ⟨rfl, htext⟩
      | stray _ hquote' => exact absurd (List.cons.inj htext).1.symm hquote'
  | stray hnone hquote =>
      cases h' with
      | matched h' => exact absurd (htext ▸ hnone) h'.not_noMatch
      | unclosed _ _ => exact absurd (List.cons.inj htext).1 hquote
      | unclosedAtEnd _ _ => exact absurd (List.cons.inj htext).1 hquote
      | stray _ _ => exact ⟨rfl, by rw [(List.cons.inj htext).1]⟩

/-! ### What the pieces count as -/

theorem lookup_single {c : Char} {kind : TokenKind} (h : single? c = some kind) :
    symbolKinds.lookup [c] = some kind := by
  have hall : ∀ d ∈ ['(', ')', '{', '}', ',', '.', '-', '+', ';', '*'],
      symbolKinds.lookup [d] = single? d := Text.forall_mem_of_all (by decide)
  rw [hall c (mem_of_single? h), h]

theorem lookup_operator {c : Char} {alone withEqual : TokenKind}
    (h : operator? c = some (alone, withEqual)) :
    symbolKinds.lookup [c] = some alone ∧ symbolKinds.lookup [c, '='] = some withEqual := by
  have hall : ∀ d ∈ ['!', '=', '<', '>'],
      symbolKinds.lookup [d] = (operator? d).map Prod.fst ∧
        symbolKinds.lookup [d, '='] = (operator? d).map Prod.snd :=
    Text.forall_mem_of_all (by decide)
  have hc := hall c (mem_of_operator? h)
  rw [h] at hc
  exact hc

/-- The lexeme at the front of a text is the first piece by the grammar, and counts as what the
grammar says. -/
theorem first_of_front {text rest : Text} {lexeme : Lexeme} (h : Front text lexeme rest) :
    ∃ rule?, First text rule? lexeme.text ∧
      rule?.bind (·.kind? lexeme.text) = lexeme.kind? ∧
      rule?.bind (·.literal? lexeme.text) = lexeme.literal? := by
  cases h with
  | @blank c rest hc =>
      have hmem : c ∈ ({' ', '\t', '\r', '\n'} : Set Char) := by
        have hlist := mem_of_isBlank hc
        simp only [List.mem_cons, List.not_mem_nil, or_false] at hlist
        rcases hlist with rfl | rfl | rfl <;> simp
      have hslash : c ≠ '/' := by
        rintro rfl
        contradiction
      exact ⟨some .whiteSpace, .matched (.oneOf rfl hmem hslash rest), rfl, rfl⟩
  | lineFeed =>
      exact ⟨some .whiteSpace, .matched (.oneOf rfl (by simp) (by decide) rest), rfl, rfl⟩
  | comment hbody hrest => exact ⟨_, .matched (longestMatch_comment hbody hrest), rfl, rfl⟩
  | @single c kind rest hc =>
      have hlist := mem_of_single? hc
      have hmem : c ∈ ({'(', ')', '{', '}', ',', '.', '-', '+', ';', '*', '/'} : Set Char) := by
        simp only [List.mem_cons, List.not_mem_nil, or_false] at hlist
        simp only [Set.mem_insert_iff, Set.mem_singleton_iff]
        tauto
      have hslash : c ≠ '/' := by
        rintro rfl
        contradiction
      exact ⟨some .punctuation, .matched (.oneOf rfl hmem hslash rest), lookup_single hc, rfl⟩
  | slash hrest => exact ⟨_, .matched (longestMatch_slash hrest), rfl, rfl⟩
  | operator hc hrest =>
      exact ⟨_, .matched (longestMatch_operator (mem_of_operator? hc) hrest),
        (lookup_operator hc).1, rfl⟩
  | operatorEqual hc =>
      exact ⟨_, .matched (longestMatch_operatorEqual (mem_of_operator? hc) _),
        (lookup_operator hc).2, rfl⟩
  | string hbody => exact ⟨_, .matched (longestMatch_string hbody _), rfl, rfl⟩
  | @unclosed body rest hbody =>
      have hstop : isStringChar '\n' = false := by decide
      have hnone := noMatch_quote hbody (Text.stops_cons hstop rest) (by simp)
      exact ⟨none, .unclosed hnone (lineFeed_notMem hbody hstop), rfl, rfl⟩
  | @unclosedAtEnd body hbody =>
      have hnone := noMatch_quote hbody (Text.stops_nil _) (by simp)
      rw [List.append_nil] at hnone
      exact ⟨none, .unclosedAtEnd hnone (lineFeed_notMem hbody (by decide)), rfl, rfl⟩
  | integer hc hdigits hrest hpoint =>
      exact ⟨_, .matched (longestMatch_integer hc hdigits hrest hpoint), rfl, rfl⟩
  | fraction hc hdigits hd hdecimals hrest =>
      exact ⟨_, .matched (longestMatch_fraction hc hdigits hd hdecimals hrest), rfl, rfl⟩
  | word hc hbody hrest => exact ⟨_, .matched (longestMatch_word hc hbody hrest), rfl, rfl⟩
  | stray hc hdigit hword =>
      exact ⟨none, .stray (noMatch_stray hc hdigit hword _) hc.quote, rfl, rfl⟩

end Grammar
end LoxLexer
