import LoxLexer.Proofs.Listing.PlainText
import LoxLexer.Proofs.Number.Unambiguity
import LoxLexer.Proofs.Text.Quotation
import LoxLexer.Table

/-!
# Tables lose nothing

A table is made for reading, with columns as wide as what stands in them, and yet it tells apart any
two lists of tokens and any two lists of errors, whether or not a source has them.  Its headings say
how many rows follow.  In a row a number or a name ends at the next blank, quoted text ends at its
delimiter, and the message of an error ends with the line, so it must not hold a line feed itself.

* `Table.lineColumn_unique`, `Table.literalColumn_unique` — columns are known from the text.
* `Table.tokenRow_unique`, `Table.errorRow_unique` — rows are, whatever the width of a column is.
* `Table.render_inj` — a table is known from its text.
-/

namespace LoxLexer

theorem LexicalError.Kind.isFieldChar_of_mem_name (kind : LexicalError.Kind) :
    ∀ c ∈ kind.name, isFieldChar c = true := by
  cases kind <;> exact Text.forall_mem_of_all (by decide)

theorem LexicalError.Kind.name_injective {kind other : LexicalError.Kind}
    (h : kind.name = other.name) : kind = other := by
  revert h
  cases kind <;> cases other <;> decide

theorem TokenKind.name_injective {kind other : TokenKind} (h : kind.name = other.name) :
    kind = other := by
  have hread := congrArg ofName? h
  rw [ofName?_name, ofName?_name] at hread
  exact Option.some.inj hread

theorem Text.isFieldChar_of_mem_ofInt {n : Int} : ∀ c ∈ Text.ofInt n, isFieldChar c = true := by
  intro c hc
  exact isFieldChar_of_property (Text.isNumeralChar_of_mem_ofInt hc) (by decide) (by decide)

namespace Table

variable {rest tail : Text}

/-! ### Fields and blanks -/

/-- A field without blanks is known from the text if a blank follows it. -/
theorem field_unique {field other : Text} (hfield : ∀ c ∈ field, isFieldChar c = true)
    (hother : ∀ c ∈ other, isFieldChar c = true)
    (h : field ++ ' ' :: rest = other ++ ' ' :: tail) : field = other ∧ rest = tail := by
  have hstop : isFieldChar ' ' = false := by decide
  obtain ⟨hsame, hrest⟩ := Text.run_unique hfield (Text.stops_cons hstop rest) hother
    (Text.stops_cons hstop tail) h
  exact ⟨hsame, (List.cons_eq_cons.mp hrest).2⟩

/-- A text that a column can be filled up with blanks before. -/
abbrev EndsBlanks (text : Text) : Prop := Text.Stops (fun c => decide (c = ' ')) text

/-- How many blanks fill a column up does not matter. -/
theorem blanks_unique {m n : Nat} (hrest : EndsBlanks rest) (htail : EndsBlanks tail)
    (h : List.replicate m ' ' ++ rest = List.replicate n ' ' ++ tail) : rest = tail := by
  have hblanks (n : Nat) : ∀ c ∈ List.replicate n ' ', decide (c = ' ') = true := by
    intro c hc
    exact decide_eq_true (List.mem_replicate.mp hc).2
  exact (Text.run_unique (hblanks m) hrest (hblanks n) htail h).2

theorem endsBlanks_ofInt (n : Int) (rest : Text) : EndsBlanks (Text.ofInt n ++ rest) := by
  obtain ⟨c, more, hmore⟩ := List.exists_cons_of_ne_nil (Text.ofInt_ne_nil n)
  have hfield : isFieldChar c = true :=
    Text.isFieldChar_of_mem_ofInt c (hmore ▸ List.mem_cons_self)
  rw [hmore]
  refine Text.stops_cons (decide_eq_false ?_) _
  rintro rfl
  exact absurd hfield (by decide)

theorem endsBlanks_quoted (text rest : Text) : EndsBlanks (Text.quoted text ++ rest) := by
  rw [Text.quoted_append]
  refine Text.stops_cons (decide_eq_false ?_) _
  obtain hquote | hquote := Text.isQuote_quoteFor text <;> rw [hquote] <;> decide

theorem lineColumn_append (line : Int) (rest : Text) :
    lineColumn line ++ rest =
      List.replicate (2 + (4 - (Text.ofInt line).length)) ' ' ++
        (Text.ofInt line ++ ' ' :: ' ' :: rest) := by
  have hblanks : "  ".toList = List.replicate 2 ' ' := rfl
  simp [lineColumn, Text.padLeft, hblanks, ← List.replicate_append_replicate]

/-- A line number is known from its column. -/
theorem lineColumn_unique {line other : Int}
    (h : lineColumn line ++ rest = lineColumn other ++ tail) : line = other ∧ rest = tail := by
  rw [lineColumn_append, lineColumn_append] at h
  have hfields := blanks_unique (endsBlanks_ofInt line _) (endsBlanks_ofInt other _) h
  obtain ⟨hline, hmore⟩ :=
    field_unique Text.isFieldChar_of_mem_ofInt Text.isFieldChar_of_mem_ofInt hfields
  exact ⟨Text.ofInt_injective hline, (List.cons_eq_cons.mp hmore).2⟩

/-! ### Values of literals -/

/-- The value of a literal as it stands in its column. -/
def literalText : Literal → Text
  | .number value => value.toText
  | .text value => Text.quoted value

theorem literalColumn_some (literal : Literal) :
    literalColumn (some literal) = "  = ".toList ++ literalText literal := by
  cases literal <;> rfl

/-- Neither a number nor the end of a line can be taken for quoted text. -/
theorem number_ne_quoted (value : Binary64) (text : Text) :
    value.toText ++ '\n' :: rest ≠ Text.quoted text ++ tail := by
  rw [Text.quoted_append]
  intro h
  have hquote : ∀ c, Binary64.isValueChar c = true ∨ c = '\n' → c ≠ Text.quoteFor text := by
    intro c hc
    obtain hquote | hquote := Text.isQuote_quoteFor text <;> rw [hquote] <;>
      (rintro rfl; revert hc; decide)
  cases hvalue : value.toText with
  | nil =>
      rw [hvalue] at h
      exact hquote '\n' (.inr rfl) (List.cons_eq_cons.mp h).1
  | cons c more =>
      rw [hvalue] at h
      have hc : Binary64.isValueChar c = true :=
        value.isValueChar_of_mem_toText c (hvalue ▸ List.mem_cons_self)
      exact hquote c (.inl hc) (List.cons_eq_cons.mp h).1

theorem literalText_unique {literal other : Literal}
    (h : literalText literal ++ '\n' :: rest = literalText other ++ '\n' :: tail) :
    literal = other ∧ rest = tail := by
  cases literal with
  | number value =>
      cases other with
      | number value' =>
          have hstop : Binary64.isValueChar '\n' = false := by decide
          obtain ⟨hvalue, hmore⟩ := Text.run_unique value.isValueChar_of_mem_toText
            (Text.stops_cons hstop rest) value'.isValueChar_of_mem_toText
            (Text.stops_cons hstop tail) h
          rw [Binary64.toText_injective hvalue]
          exact ⟨rfl, (List.cons_eq_cons.mp hmore).2⟩
      | text value' => exact absurd h (number_ne_quoted value value')
  | text value =>
      cases other with
      | number value' => exact absurd h.symm (number_ne_quoted value' value)
      | text value' =>
          obtain ⟨rfl, hmore⟩ := Text.quoted_unique h
          exact ⟨rfl, (List.cons_eq_cons.mp hmore).2⟩

/-- The value of a literal is known from its column, also that there is none. -/
theorem literalColumn_unique {literal other : Option Literal}
    (h : literalColumn literal ++ '\n' :: rest = literalColumn other ++ '\n' :: tail) :
    literal = other ∧ rest = tail := by
  cases literal with
  | none =>
      cases other with
      | none => exact ⟨rfl, (List.cons_eq_cons.mp h).2⟩
      | some other =>
          rw [literalColumn_some] at h
          exact absurd (List.cons_eq_cons.mp h).1 (by decide)
  | some literal =>
      cases other with
      | none =>
          rw [literalColumn_some] at h
          exact absurd (List.cons_eq_cons.mp h).1 (by decide)
      | some other =>
          rw [literalColumn_some, literalColumn_some, List.append_assoc, List.append_assoc] at h
          obtain ⟨rfl, hrest⟩ := literalText_unique (List.append_cancel_left h)
          exact ⟨rfl, hrest⟩

/-! ### Rows -/

theorem tokenRow_append (width : Nat) (token : Token) (rest : Text) :
    tokenRow width token ++ rest =
      lineColumn token.line ++ (token.kind.name ++ ' ' ::
        (List.replicate (width - token.kind.name.length + 1) ' ' ++
          (Text.quoted token.lexeme ++ (literalColumn token.literal ++ '\n' :: rest)))) := by
  have hblanks : "  ".toList = List.replicate 2 ' ' := rfl
  have hfill (n : Nat) (more : Text) : ' ' :: (List.replicate (n + 1) ' ' ++ more) =
      List.replicate n ' ' ++ (List.replicate 2 ' ' ++ more) := by
    rw [← List.append_assoc, List.replicate_append_replicate, ← List.cons_append,
      ← List.replicate_succ]
  rw [hfill, ← hblanks]
  simp [tokenRow, Text.padRight]

/-- A token is known from its row, whatever the width of the column of kinds is. -/
theorem tokenRow_unique {width width' : Nat} {token other : Token}
    (h : tokenRow width token ++ rest = tokenRow width' other ++ tail) :
    token = other ∧ rest = tail := by
  rw [tokenRow_append, tokenRow_append] at h
  obtain ⟨hline, hkinds⟩ := lineColumn_unique h
  obtain ⟨hname, hlexemes⟩ := field_unique token.kind.isFieldChar_of_mem_name
    other.kind.isFieldChar_of_mem_name hkinds
  have hquoted := blanks_unique (endsBlanks_quoted _ _) (endsBlanks_quoted _ _) hlexemes
  obtain ⟨hlexeme, hliterals⟩ := Text.quoted_unique hquoted
  obtain ⟨hliteral, hrest⟩ := literalColumn_unique hliterals
  obtain ⟨kind, lexeme, literal, line⟩ := token
  cases TokenKind.name_injective hname
  cases hlexeme
  cases hliteral
  cases hline
  exact ⟨rfl, hrest⟩

theorem errorRow_append (error : LexicalError) (rest : Text) :
    errorRow error ++ rest =
      lineColumn error.line ++ (error.kind.name ++ ' ' :: (" offset=".toList ++
        (Text.ofInt error.offset ++ ' ' :: ' ' :: (error.message ++ '\n' :: rest)))) := by
  simp [errorRow]

/-- An error is known from its row if its message is on one line. -/
theorem errorRow_unique {error other : LexicalError} (herror : '\n' ∉ error.message)
    (hother : '\n' ∉ other.message) (h : errorRow error ++ rest = errorRow other ++ tail) :
    error = other ∧ rest = tail := by
  rw [errorRow_append, errorRow_append] at h
  obtain ⟨hline, hkinds⟩ := lineColumn_unique h
  obtain ⟨hname, hlabels⟩ := field_unique error.kind.isFieldChar_of_mem_name
    other.kind.isFieldChar_of_mem_name hkinds
  obtain ⟨hoffset, hblank⟩ := field_unique Text.isFieldChar_of_mem_ofInt
    Text.isFieldChar_of_mem_ofInt (List.append_cancel_left hlabels)
  have hstop (text : Text) : Text.Stops (fun c => decide (c ≠ '\n')) ('\n' :: text) :=
    Text.stops_cons (by decide) text
  obtain ⟨hmessage, hrest⟩ := Text.run_unique (Text.decide_ne_of_notMem herror) (hstop rest)
    (Text.decide_ne_of_notMem hother) (hstop tail) (List.cons_eq_cons.mp hblank).2
  obtain ⟨kind, message, line, offset⟩ := error
  cases LexicalError.Kind.name_injective hname
  cases hmessage
  cases hline
  cases Text.ofInt_injective hoffset
  exact ⟨rfl, (List.cons_eq_cons.mp hrest).2⟩

/-- As many rows as are known from the text are known all together. -/
theorem rows_unique {α : Type} {row row' : α → Text} {entries others : List α}
    (hrow : ∀ x ∈ entries, ∀ y ∈ others, ∀ rest tail,
      row x ++ rest = row' y ++ tail → x = y ∧ rest = tail)
    (hlength : entries.length = others.length)
    (h : entries.flatMap row ++ rest = others.flatMap row' ++ tail) :
    entries = others ∧ rest = tail := by
  induction entries generalizing others with
  | nil =>
      obtain rfl := List.length_eq_zero_iff.mp hlength.symm
      exact ⟨rfl, h⟩
  | cons x entries ih =>
      cases others with
      | nil => contradiction
      | cons y others =>
          rw [List.flatMap_cons, List.flatMap_cons, List.append_assoc, List.append_assoc] at h
          obtain ⟨rfl, hmore⟩ := hrow x List.mem_cons_self y List.mem_cons_self _ _ h
          obtain ⟨rfl, hrest⟩ := ih
            (fun x hx y hy => hrow x (List.mem_cons_of_mem _ hx) y (List.mem_cons_of_mem _ hy))
            (Nat.succ.inj hlength) hmore
          exact ⟨rfl, hrest⟩

/-! ### Tables -/

/-- The count is known from a heading. -/
theorem heading_unique {title : Text} {count other : Nat}
    (h : heading title count ++ rest = heading title other ++ tail) :
    count = other ∧ rest = tail := by
  have hheading (n : Nat) (more : Text) : heading title n ++ more =
      title ++ " (".toList ++ (Text.ofNat n ++ ')' :: '\n' :: more) := by
    simp [heading]
  have hstop (more : Text) : Text.Stops isDigit (')' :: more) := Text.stops_cons (by decide) more
  rw [hheading, hheading] at h
  obtain ⟨hcount, hmore⟩ := Text.run_unique (fun _ => Text.isDigit_of_mem_ofNat) (hstop _)
    (fun _ => Text.isDigit_of_mem_ofNat) (hstop _) (List.append_cancel_left h)
  have hrest := (List.cons_eq_cons.mp (List.cons_eq_cons.mp hmore).2).2
  exact ⟨Text.ofNat_injective hcount, hrest⟩

theorem tokenRows_unique {width width' : Nat} {tokens others : List Token}
    (hlength : tokens.length = others.length)
    (h : tokens.flatMap (tokenRow width) ++ rest = others.flatMap (tokenRow width') ++ tail) :
    tokens = others ∧ rest = tail :=
  rows_unique (fun _ _ _ _ _ _ hrows => tokenRow_unique hrows) hlength h

/-- The errors are known from their section, also that there are none. -/
theorem errorSection_unique {errors others : List LexicalError}
    (herrors : ∀ error ∈ errors, '\n' ∉ error.message)
    (hothers : ∀ error ∈ others, '\n' ∉ error.message)
    (h : errorSection errors = errorSection others) : errors = others := by
  unfold errorSection at h
  split at h
  · rename_i hnone
    split at h
    · rename_i hnone'
      rw [hnone, hnone']
    · exact absurd h.symm (List.cons_ne_nil _ _)
  · split at h
    · exact absurd h (List.cons_ne_nil _ _)
    · obtain ⟨hlength, hrows⟩ := heading_unique h
      rw [← List.append_nil (List.flatMap _ errors), ← List.append_nil (List.flatMap _ others)]
        at hrows
      have hrow : ∀ error ∈ errors, ∀ other ∈ others, ∀ rest tail,
          errorRow error ++ rest = errorRow other ++ tail → error = other ∧ rest = tail :=
        fun error herror other hother _ _ =>
          errorRow_unique (herrors error herror) (hothers other hother)
      exact (rows_unique hrow hlength hrows).1

/-- A table is known from its text: with messages on one line each, two tables are written alike
only if they have the same tokens, with kinds, lexemes, values and lines, and the same errors, with
kinds, messages, lines and offsets. -/
theorem render_inj {tokens others : List Token} {errors otherErrors : List LexicalError}
    (herrors : ∀ error ∈ errors, '\n' ∉ error.message)
    (hothers : ∀ error ∈ otherErrors, '\n' ∉ error.message) :
    render tokens errors = render others otherErrors ↔ tokens = others ∧ errors = otherErrors := by
  constructor
  · intro h
    unfold render at h
    rw [List.append_assoc, List.append_assoc] at h
    obtain ⟨hlength, hrows⟩ := heading_unique h
    obtain ⟨htokens, hsections⟩ := tokenRows_unique hlength hrows
    exact ⟨htokens, errorSection_unique herrors hothers hsections⟩
  · rintro ⟨rfl, rfl⟩
    rfl

/-- A lexeme that looks like a lexeme with a value behind it. -/
def disguisedToken : Token := ⟨.string, "a'  = 'b\"".toList, none, 1⟩

/-- The token that it looks like. -/
def plainToken : Token := ⟨.string, "a".toList, some (.text "b\"".toList), 1⟩

/-- An error whose message looks like the row of another. -/
def disguisedError : LexicalError :=
  ⟨.unexpectedCharacter, "!     1  UNTERMINATED_STRING  offset=0  ?".toList, 1, -1⟩

theorem render_inj_disguised :
    (∀ error ∈ [disguisedError], '\n' ∉ error.message) ∧
      render [disguisedToken] [disguisedError] ≠ render [plainToken] [disguisedError] ∧
      render [disguisedToken] [disguisedError] ≠ render [disguisedToken] [] := by
  have herrors : ∀ error ∈ [disguisedError], '\n' ∉ error.message := by decide
  refine ⟨herrors, fun h => ?_, fun h => ?_⟩
  · exact absurd ((render_inj herrors herrors).mp h).1 (by decide)
  · exact absurd ((render_inj herrors (List.forall_mem_nil _)).mp h).2 (by decide)

end Table
end LoxLexer
