import LoxLexer.Lexing
import LoxLexer.Proofs.Lexeme.Front

/-!
# Tokens and errors of lexemes at another place

Tokens and errors are read off lexemes from a line and an offset on.  Reading on from another
place moves them, and reading two lists of lexemes reads the second from where the first ends.

* `scannedOf` — the tokens of lexemes without the end of file.
* `Token.later`, `LexicalError.later` — the same on a later line and at a later offset.
* `scannedOf_add`, `errorsOf_add` — reading on from another place.
* `scannedOf_append`, `errorsOf_append` — reading two lists of lexemes.
-/

namespace LoxLexer

/-- What a function changes in no place of a list it leaves as it is. -/
theorem map_eq_self {α : Type} {f : α → α} {list : List α} (h : ∀ x ∈ list, f x = x) :
    list.map f = list :=
  (List.map_congr_left h).trans (List.map_id list)

/-- The token on a line that is further down. -/
def Token.later (lines : Int) (token : Token) : Token := { token with line := token.line + lines }

/-- The error on a line that is further down, at a larger offset. -/
def LexicalError.later (lines : Int) (offset : Nat) (error : LexicalError) : LexicalError :=
  { error with line := error.line + lines, offset := error.offset + offset }

theorem Token.later_endOfFile (lines line : Int) :
    (Token.endOfFile line).later lines = Token.endOfFile (line + lines) := rfl

theorem Lexeme.token?_add (lexeme : Lexeme) (line lines : Int) :
    lexeme.token? (line + lines) = (lexeme.token? line).map (Token.later lines) := by
  rw [Lexeme.token?, Lexeme.token?, Option.map_map]
  rfl

theorem Defect.located_add (defect : Defect) (line lines : Int) (offset more : Nat) :
    defect.located (line + lines) (offset + more) =
      (defect.located line offset).later lines more := by
  simp [Defect.located, LexicalError.later]

/-- The tokens of lexemes of which the first starts on `line`. -/
def scannedOf (line : Int) : List Lexeme → List Token
  | [] => []
  | lexeme :: rest =>
    (lexeme.token? line).toList ++ scannedOf (line + lexeme.text.lineFeeds) rest

/-- The text that lexemes make up. -/
def textOf (found : List Lexeme) : Text := found.flatMap Lexeme.text

@[simp] theorem textOf_nil : textOf [] = [] := rfl

@[simp] theorem textOf_cons (lexeme : Lexeme) (rest : List Lexeme) :
    textOf (lexeme :: rest) = lexeme.text ++ textOf rest := rfl

theorem textOf_lexemes (source : Text) : textOf (lexemes source) = source :=
  lexemes_flatMap_text source

theorem textOf_append (found more : List Lexeme) :
    textOf (found ++ more) = textOf found ++ textOf more := List.flatMap_append

/-- Behind the tokens of lexemes stands the end of file, on the line where they end. -/
theorem tokensOf_eq (line : Int) (found : List Lexeme) :
    tokensOf line found =
      scannedOf line found ++ [Token.endOfFile (line + (textOf found).lineFeeds)] := by
  induction found generalizing line with
  | nil => simp [tokensOf, scannedOf]
  | cons lexeme rest ih =>
      rw [tokensOf, scannedOf, ih, textOf_cons, Text.lineFeeds_append, Int.natCast_add,
        ← Int.add_assoc, List.append_assoc]

/-- Every token is one of the lexemes. -/
theorem exists_lexeme_of_mem_scannedOf {token : Token} {line : Int} {found : List Lexeme}
    (h : token ∈ scannedOf line found) :
    ∃ lexeme ∈ found, ∃ first, lexeme.token? first = some token := by
  induction found generalizing line with
  | nil => simp [scannedOf] at h
  | cons lexeme rest ih =>
      rcases List.mem_append.mp h with hfirst | hrest
      · exact ⟨lexeme, List.mem_cons_self, line, Option.mem_toList.mp hfirst⟩
      · obtain ⟨other, hother, htoken⟩ := ih hrest
        exact ⟨other, List.mem_cons_of_mem lexeme hother, htoken⟩

/-- Every error is a defect of one of the lexemes, and stands where these start or further on. -/
theorem exists_defect_of_mem_errorsOf {error : LexicalError} {line : Int} {offset : Nat}
    {found : List Lexeme} (h : error ∈ errorsOf line offset found) :
    ∃ lexeme ∈ found, ∃ defect, lexeme.defect? = some defect ∧
      ∃ first position, offset ≤ position ∧ error = defect.located first position := by
  induction found generalizing line offset with
  | nil => simp [errorsOf] at h
  | cons lexeme rest ih =>
      rcases List.mem_append.mp h with hfirst | hrest
      · obtain ⟨defect, hdefect, rfl⟩ := Option.map_eq_some_iff.mp (Option.mem_toList.mp hfirst)
        exact ⟨lexeme, List.mem_cons_self, defect, hdefect, line, offset, Nat.le_refl _, rfl⟩
      · obtain ⟨other, hother, defect, hdefect, first, position, hle, rfl⟩ := ih hrest
        have hmem := List.mem_cons_of_mem lexeme hother
        exact ⟨other, hmem, defect, hdefect, first, position, by omega, rfl⟩

theorem offset_le_of_mem_errorsOf {error : LexicalError} {line : Int} {offset : Nat}
    {found : List Lexeme} (h : error ∈ errorsOf line offset found) : offset ≤ error.offset := by
  obtain ⟨lexeme, -, defect, -, first, position, hle, rfl⟩ := exists_defect_of_mem_errorsOf h
  exact Int.ofNat_le.mpr hle

/-- No error is about a line feed, so that every message is on one line. -/
theorem lineFeed_notMem_message {error : LexicalError} {line : Int} {offset : Nat}
    {source : Text} (h : error ∈ errorsOf line offset (lexemes source)) :
    '\n' ∉ error.message := by
  obtain ⟨lexeme, hlexeme, defect, hdefect, first, position, -, rfl⟩ :=
    exists_defect_of_mem_errorsOf h
  obtain ⟨text, rest, hfront⟩ := exists_front_of_mem_lexemes hlexeme
  show '\n' ∉ defect.message
  cases hfront with
  | unclosed =>
      obtain rfl := Option.some.inj hdefect
      decide
  | unclosedAtEnd =>
      obtain rfl := Option.some.inj hdefect
      decide
  | stray hc =>
      obtain rfl := Option.some.inj hdefect
      intro hmem
      rcases List.mem_append.mp hmem with hlabel | hlast
      · simp at hlabel
      · exact hc.lineFeed (List.mem_singleton.mp hlast).symm
  | _ => contradiction

/-! ### Another place -/

theorem scannedOf_add (line lines : Int) (found : List Lexeme) :
    scannedOf (line + lines) found = (scannedOf line found).map (Token.later lines) := by
  induction found generalizing line with
  | nil => rfl
  | cons lexeme rest ih =>
      have hline : line + lines + lexeme.text.lineFeeds =
          line + lexeme.text.lineFeeds + lines := by omega
      rw [scannedOf, scannedOf, hline, ih, Lexeme.token?_add, List.map_append]
      cases lexeme.token? line <;> rfl

theorem tokensOf_add (line lines : Int) (found : List Lexeme) :
    tokensOf (line + lines) found = (tokensOf line found).map (Token.later lines) := by
  have hline : line + lines + (textOf found).lineFeeds =
      line + (textOf found).lineFeeds + lines := by omega
  rw [tokensOf_eq, tokensOf_eq, scannedOf_add, hline, List.map_append, List.map_singleton,
    Token.later_endOfFile]

theorem errorsOf_add (line lines : Int) (offset more : Nat) (found : List Lexeme) :
    errorsOf (line + lines) (offset + more) found =
      (errorsOf line offset found).map (LexicalError.later lines more) := by
  induction found generalizing line offset with
  | nil => rfl
  | cons lexeme rest ih =>
      have hline : line + lines + lexeme.text.lineFeeds =
          line + lexeme.text.lineFeeds + lines := by omega
      have hoffset : offset + more + lexeme.text.length =
          offset + lexeme.text.length + more := by omega
      rw [errorsOf, errorsOf, hline, hoffset, ih, List.map_append]
      cases lexeme.defect? with
      | none => rfl
      | some defect => simp [Defect.located_add]

/-! ### Two lists of lexemes -/

theorem scannedOf_append (line : Int) (found more : List Lexeme) :
    scannedOf line (found ++ more) =
      scannedOf line found ++ scannedOf (line + (textOf found).lineFeeds) more := by
  induction found generalizing line with
  | nil => simp [scannedOf]
  | cons lexeme rest ih =>
      rw [List.cons_append, scannedOf, scannedOf, ih, textOf_cons, Text.lineFeeds_append,
        Int.natCast_add, ← Int.add_assoc, List.append_assoc]

theorem tokensOf_append (line : Int) (found more : List Lexeme) :
    tokensOf line (found ++ more) =
      scannedOf line found ++ tokensOf (line + (textOf found).lineFeeds) more := by
  rw [tokensOf_eq, tokensOf_eq, scannedOf_append, textOf_append, Text.lineFeeds_append,
    Int.natCast_add, ← Int.add_assoc, List.append_assoc]

theorem errorsOf_append (line : Int) (offset : Nat) (found more : List Lexeme) :
    errorsOf line offset (found ++ more) =
      errorsOf line offset found ++
        errorsOf (line + (textOf found).lineFeeds) (offset + (textOf found).length) more := by
  induction found generalizing line offset with
  | nil => simp [errorsOf]
  | cons lexeme rest ih =>
      rw [List.cons_append, errorsOf, errorsOf, ih, textOf_cons, Text.lineFeeds_append,
        Int.natCast_add, List.length_append, ← Int.add_assoc, ← Nat.add_assoc,
        List.append_assoc]

end LoxLexer
