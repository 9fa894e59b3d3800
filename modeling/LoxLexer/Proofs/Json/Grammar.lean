import LoxLexer.Proofs.Number.Notation

/-!
# The grammar of JSON

Which texts are JSON documents, and what they denote, told without any writer or reader.  A string
denotes code points: two escapes that are a surrogate pair denote one, and a lone surrogate denotes
itself.  A number without fraction and exponent denotes an integer, any other the nearest binary64
value.

* `Json.Datum` — what a text denotes.
* `Json.Character`, `Json.Quoted` — characters of strings, and strings.
* `Json.Separated`, `Json.Bracketed`, `Json.Member` — what arrays and objects are built with.
* `Json.Value`, `Json.Document` — values, and documents: values with white space around them.
* `Json.Quoted.unique` — what a string denotes, and where it ends, is known from the text.
-/

namespace LoxLexer
namespace Json

/-- What a JSON text denotes. -/
inductive Datum
  | null
  | truth (value : Bool)
  | integer (value : Int)
  | number (value : Binary64)
  | string (points : List Nat)
  | array (items : List Datum)
  | object (members : List (List Nat × Datum))

/-- White space of JSON. -/
def isSpace (c : Char) : Bool := c = ' ' || c = '\t' || c = '\n' || c = '\r'

/-- A text of nothing but white space. -/
def Space (text : Text) : Prop := ∀ c ∈ text, isSpace c = true

/-! ### Strings -/

/-- The characters that stand behind a backslash for others. -/
def shorthands : List (Char × Char) :=
  [('"', '"'), ('\\', '\\'), ('/', '/'), ('b', '\x08'), ('f', '\x0c'), ('n', '\n'), ('r', '\r'),
    ('t', '\t')]

/-- `Character text unit`: a character of a string, and the code point or the UTF-16 code unit that
it denotes. -/
inductive Character : Text → Nat → Prop
  | plain {c : Char} (hcontrol : 0x20 ≤ c.toNat) (hquote : c ≠ '"') (hbackslash : c ≠ '\\') :
      Character [c] c.toNat
  | shorthand {c d : Char} (h : (c, d) ∈ shorthands) : Character ['\\', c] d.toNat
  | unit {digits : Text} (hlength : digits.length = 4)
      (hdigits : ∀ c ∈ digits, Text.isHexDigit c = true) :
      Character ('\\' :: 'u' :: digits) (Text.valueInBase 16 digits)

/-- Characters of a string, and what they denote one by one. -/
inductive Characters : Text → List Nat → Prop
  | nil : Characters [] []
  | cons {text more : Text} {unit : Nat} {units : List Nat} (hfirst : Character text unit)
      (hmore : Characters more units) : Characters (text ++ more) (unit :: units)

/-- A high surrogate. -/
def isHigh (unit : Nat) : Bool := 0xd800 ≤ unit && unit < 0xdc00

/-- A low surrogate. -/
def isLow (unit : Nat) : Bool := 0xdc00 ≤ unit && unit < 0xe000

/-- Surrogate pairs put together; every other unit is a code point by itself. -/
def joinPairs : List Nat → List Nat
  | [] => []
  | [unit] => [unit]
  | high :: low :: rest =>
    if isHigh high && isLow low then
      (0x10000 + (high - 0xd800) * 0x400 + (low - 0xdc00)) :: joinPairs rest
    else high :: joinPairs (low :: rest)

/-- A string in quotes, and its code points. -/
inductive Quoted : Text → List Nat → Prop
  | intro {body : Text} {units : List Nat} (h : Characters body units) :
      Quoted ('"' :: (body ++ ['"'])) (joinPairs units)

/-! ### Values -/

section Parts

variable {α : Type} (Entry : Text → α → Prop)

/-- Entries, each behind a comma with white space around it. -/
inductive Separated : Text → List α → Prop
  | nil : Separated [] []
  | cons {before behind text more : Text} {value : α} {values : List α} (hbefore : Space before)
      (hbehind : Space behind) (hentry : Entry text value) (hmore : Separated more values) :
      Separated (before ++ ',' :: (behind ++ (text ++ more))) (value :: values)

/-- Entries between two brackets, separated by commas. -/
inductive Bracketed (first last : Char) : Text → List α → Prop
  | empty {between : Text} (hbetween : Space between) :
      Bracketed first last (first :: (between ++ [last])) []
  | filled {before behind text more : Text} {value : α} {values : List α} (hbefore : Space before)
      (hentry : Entry text value) (hmore : Separated Entry more values) (hbehind : Space behind) :
      Bracketed first last (first :: (before ++ (text ++ (more ++ (behind ++ [last])))))
        (value :: values)

/-- A name and an entry, with a colon between them. -/
inductive Member : Text → List Nat × α → Prop
  | intro {key before behind text : Text} {points : List Nat} {value : α}
      (hkey : Quoted key points) (hbefore : Space before) (hbehind : Space behind)
      (hentry : Entry text value) :
      Member (key ++ (before ++ ':' :: (behind ++ text))) (points, value)

end Parts

/-- `Value text datum`: the text is a value, and denotes this. -/
inductive Value : Text → Datum → Prop
  | null : Value "null".toList .null
  | truth (value : Bool) :
      Value (if value then "true".toList else "false".toList) (.truth value)
  | integer (n : DecimalNotation) (h : n.IsInteger) : Value n.text (.integer n.integer)
  | number (n : DecimalNotation) (h : ¬ n.IsInteger) : Value n.text (.number n.value)
  | string {text : Text} {points : List Nat} (h : Quoted text points) :
      Value text (.string points)
  | array {text : Text} {items : List Datum} (h : Bracketed Value '[' ']' text items) :
      Value text (.array items)
  | object {text : Text} {members : List (List Nat × Datum)}
      (h : Bracketed (Member Value) '{' '}' text members) : Value text (.object members)

/-- `Document text datum`: the text is a document, and denotes this. -/
def Document (text : Text) (datum : Datum) : Prop :=
  ∃ before value behind, Space before ∧ Value value datum ∧ Space behind ∧
    text = before ++ (value ++ behind)

/-- The text is a document. -/
def IsDocument (text : Text) : Prop := ∃ datum, Document text datum

/-! ### Where a string ends -/

theorem eq_of_mem_shorthands {c d e : Char} (hd : (c, d) ∈ shorthands) (he : (c, e) ∈ shorthands) :
    d = e := by
  have hall : ∀ entry ∈ shorthands, ∀ other ∈ shorthands,
      entry.1 = other.1 → entry.2 = other.2 := by decide
  exact hall _ hd _ he rfl

theorem notMem_shorthands (d : Char) : ('u', d) ∉ shorthands := by
  have hall : ∀ entry ∈ shorthands, entry.1 ≠ 'u' := by decide
  exact fun h => hall _ h rfl

/-- No character of a string starts with a quote. -/
theorem Character.exists_cons {text : Text} {unit : Nat} (h : Character text unit) :
    ∃ c more, text = c :: more ∧ c ≠ '"' := by
  cases h with
  | plain _ hquote => exact ⟨_, _, rfl, hquote⟩
  | shorthand | unit => exact ⟨_, _, rfl, by decide⟩

/-- No character of a string is the beginning of another. -/
theorem Character.unique {text text' rest rest' : Text} {unit unit' : Nat}
    (h : Character text unit) (h' : Character text' unit')
    (heq : text ++ rest = text' ++ rest') : unit = unit' ∧ rest = rest' := by
  -- the first character tells a plain one from an escape, the second a shorthand from a unit
  cases h with
  | plain _ _ hbackslash =>
      cases h' with
      | plain =>
          obtain ⟨rfl, rfl⟩ := List.cons_eq_cons.mp heq
          exact ⟨rfl, rfl⟩
      | shorthand | unit => exact absurd (List.cons_eq_cons.mp heq).1 hbackslash
  | shorthand hmem =>
      cases h' with
      | plain _ _ hbackslash => exact absurd (List.cons_eq_cons.mp heq).1.symm hbackslash
      | shorthand hmem' =>
          obtain ⟨-, hrest⟩ := List.cons_eq_cons.mp heq
          obtain ⟨rfl, rfl⟩ := List.cons_eq_cons.mp hrest
          rw [eq_of_mem_shorthands hmem hmem']
          exact ⟨rfl, rfl⟩
      | unit =>
          obtain ⟨-, hrest⟩ := List.cons_eq_cons.mp heq
          obtain ⟨rfl, -⟩ := List.cons_eq_cons.mp hrest
          exact absurd hmem (notMem_shorthands _)
  | unit hlength =>
      cases h' with
      | plain _ _ hbackslash => exact absurd (List.cons_eq_cons.mp heq).1.symm hbackslash
      | shorthand hmem' =>
          obtain ⟨-, hrest⟩ := List.cons_eq_cons.mp heq
          obtain ⟨rfl, -⟩ := List.cons_eq_cons.mp hrest
          exact absurd hmem' (notMem_shorthands _)
      | unit hlength' =>
          obtain ⟨-, hrest⟩ := List.cons_eq_cons.mp heq
          obtain ⟨-, hdigits⟩ := List.cons_eq_cons.mp hrest
          obtain ⟨rfl, rfl⟩ := List.append_inj hdigits (hlength.trans hlength'.symm)
          exact ⟨rfl, rfl⟩

theorem Characters.unique {body body' rest rest' : Text} {units units' : List Nat}
    (h : Characters body units) (h' : Characters body' units')
    (heq : body ++ '"' :: rest = body' ++ '"' :: rest') : units = units' ∧ rest = rest' := by
  induction h generalizing body' units' with
  | nil =>
      cases h' with
      | nil => exact ⟨rfl, (List.cons_eq_cons.mp heq).2⟩
      | cons hfirst' hmore' =>
          obtain ⟨c, more, rfl, hquote⟩ := hfirst'.exists_cons
          exact absurd (List.cons_eq_cons.mp heq).1.symm hquote
  | cons hfirst hmore ih =>
      cases h' with
      | nil =>
          obtain ⟨c, more, rfl, hquote⟩ := hfirst.exists_cons
          exact absurd (List.cons_eq_cons.mp heq).1 hquote
      | cons hfirst' hmore' =>
          rw [List.append_assoc, List.append_assoc] at heq
          obtain ⟨rfl, hrest⟩ := hfirst.unique hfirst' heq
          obtain ⟨rfl, rfl⟩ := ih hmore' hrest
          exact ⟨rfl, rfl⟩

/-- What a string denotes, and where it ends, is known from the text. -/
theorem Quoted.unique {text text' rest rest' : Text} {points points' : List Nat}
    (h : Quoted text points) (h' : Quoted text' points')
    (heq : text ++ rest = text' ++ rest') : points = points' ∧ rest = rest' := by
  cases h with
  | intro hbody =>
      cases h' with
      | intro hbody' =>
          simp only [List.cons_append, List.append_assoc, List.nil_append, List.cons.injEq,
            true_and] at heq
          obtain ⟨rfl, rfl⟩ := hbody.unique hbody' heq
          exact ⟨rfl, rfl⟩

/-! ### How a value starts -/

/-- `Leads c datum`: a value that denotes this can start with the character. -/
def Leads (c : Char) : Datum → Prop
  | .null => c = 'n'
  | .truth _ => c = 't' ∨ c = 'f'
  | .integer _ | .number _ => c = '-' ∨ isDigit c = true
  | .string _ => c = '"'
  | .array _ => c = '['
  | .object _ => c = '{'

theorem Value.exists_cons {text : Text} {datum : Datum} (h : Value text datum) :
    ∃ c more, text = c :: more ∧ Leads c datum := by
  cases h with
  | null => exact ⟨_, _, rfl, rfl⟩
  | truth value =>
      cases value with
      | true => exact ⟨_, _, rfl, .inl rfl⟩
      | false => exact ⟨_, _, rfl, .inr rfl⟩
  | integer n | number n => exact n.exists_text_eq_cons
  | string h => cases h with | intro => exact ⟨_, _, rfl, rfl⟩
  | array h => cases h <;> exact ⟨_, _, rfl, rfl⟩
  | object h => cases h <;> exact ⟨_, _, rfl, rfl⟩

end Json
end LoxLexer
