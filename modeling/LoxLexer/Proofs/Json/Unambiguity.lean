import LoxLexer.Proofs.Json.Writing

/-!
# What is written can be read in one way only

Whatever the grammar reads where the notation of a value stands is that notation, and denotes the
value; and if a number of the value is not finite, the grammar reads nothing there.  A number ends
where no character of a number follows, so this is said of notations with something else behind
them.

* `Json.Determines` — a text can be read in one way only.
* `Json.Bracketed.determined` — what determines its entries determines an array or an object.
* `Json.determines_write` — the notation of a value determines it.
* `Json.document_iff` — the documents that are notations of values.
-/

namespace LoxLexer
namespace Json

/-! ### Where a value can start -/

/-- The characters that end an entry. -/
def closers : List Char := [',', ']', '}']

/-- A text that a value can be at the front of. -/
def Opens (text : Text) : Prop := ∃ c more, text = c :: more ∧ isSpace c = false ∧ c ∉ closers

theorem Opens.stops {text : Text} (h : Opens text) (rest : Text) :
    Text.Stops isSpace (text ++ rest) := by
  obtain ⟨c, more, rfl, hspace, -⟩ := h
  exact Text.stops_cons hspace _

theorem Opens.append_ne {text : Text} (h : Opens text) {c : Char} (hc : c ∈ closers)
    (rest tail : Text) : text ++ rest ≠ c :: tail := by
  obtain ⟨d, more, rfl, -, hd⟩ := h
  rintro heq
  obtain rfl := (List.cons_eq_cons.mp heq).1
  exact hd hc

theorem opens_of_leads {c : Char} {datum : Datum} (h : Leads c datum) :
    isSpace c = false ∧ c ∉ closers := by
  have hnumber (hc : c = '-' ∨ isDigit c = true) : isSpace c = false ∧ c ∉ closers := by
    have hall : ∀ d ∈ [' ', '\t', '\n', '\r', ',', ']', '}'], ¬ (d = '-' ∨ isDigit d = true) :=
      Text.forall_mem_of_all (by decide)
    have hnot : c ∉ [' ', '\t', '\n', '\r', ',', ']', '}'] := fun hmem => hall c hmem hc
    simpa [isSpace, closers, and_assoc] using hnot
  cases datum with
  | truth => rcases h with rfl | rfl <;> decide
  | integer | number => exact hnumber h
  | null | string | array | object =>
      rw [Leads] at h
      rw [h]
      decide

theorem Value.opens {text : Text} {datum : Datum} (h : Value text datum) : Opens text := by
  obtain ⟨c, more, htext, hleads⟩ := h.exists_cons
  exact ⟨c, more, htext, opens_of_leads hleads⟩

/-! ### Texts that can be read in one way only -/

/-- Nothing that could go on a number. -/
abbrev EndsNumber (rest : Text) : Prop := Text.Stops DecimalNotation.isNumeralChar rest

/-- `Determines Entry text value possible`: whatever is read where the text stands ends where it
ends and denotes the value; and nothing is read there unless it is possible. -/
def Determines {α : Type} (Entry : Text → α → Prop) (text : Text) (value : α) (possible : Prop) :
    Prop :=
  ∀ {other : Text} {denoted : α} {tail rest : Text}, Entry other denoted →
    other ++ tail = text ++ rest → EndsNumber tail → EndsNumber rest →
      possible ∧ denoted = value ∧ tail = rest

theorem endsNumber_of_closer {c : Char} (h : c ∈ closers) (rest : Text) :
    EndsNumber (c :: rest) := by
  have hall : ∀ d ∈ closers, DecimalNotation.isNumeralChar d = false :=
    Text.forall_mem_of_all (by decide)
  exact Text.stops_cons (hall c h) rest

theorem stops_of_closer {c : Char} (h : c ∈ closers) (rest : Text) :
    Text.Stops isSpace (c :: rest) := by
  have hall : ∀ d ∈ closers, isSpace d = false := Text.forall_mem_of_all (by decide)
  exact Text.stops_cons (hall c h) rest

theorem endsNumber_space {before : Text} (h : Space before) {rest : Text}
    (hrest : EndsNumber rest) : EndsNumber (before ++ rest) := by
  cases before with
  | nil => exact hrest
  | cons c before =>
      have hc := h c List.mem_cons_self
      refine Text.stops_cons ?_ _
      simp only [isSpace, Bool.or_eq_true, decide_eq_true_iff] at hc
      rcases hc with ((rfl | rfl) | rfl) | rfl <;> decide

/-- White space is told from what follows it. -/
theorem space_unique {before before' rest rest' : Text} (hbefore : Space before)
    (hrest : Text.Stops isSpace rest) (hbefore' : Space before')
    (hrest' : Text.Stops isSpace rest') (h : before ++ rest = before' ++ rest') : rest = rest' :=
  (Text.run_unique hbefore hrest hbefore' hrest' h).2

section Entries

variable {α β : Type} {Entry : Text → α → Prop} {f : β → Text} {g : β → α} {possible : β → Prop}
  {list : List β} {first last : Char}

/-- What is needed of entries so that they can be told apart between brackets. -/
structure Distinct (Entry : Text → α → Prop) (f : β → Text) (g : β → α) (possible : β → Prop)
    (list : List β) : Prop where
  opens : ∀ {text : Text} {value : α}, Entry text value → Opens text
  opens_entry : ∀ x ∈ list, Opens (f x)
  determines : ∀ x ∈ list, Determines Entry (f x) (g x) (possible x)

theorem Distinct.tail {x : β} (h : Distinct Entry f g possible (x :: list)) :
    Distinct Entry f g possible list where
  opens := h.opens
  opens_entry := fun y hy => h.opens_entry y (List.mem_cons_of_mem x hy)
  determines := fun y hy => h.determines y (List.mem_cons_of_mem x hy)

/-- An entry behind white space. -/
theorem Distinct.entry {x : β} (h : Distinct Entry f g possible (x :: list))
    {before before' text tail rest : Text} {value : α} (hbefore : Space before)
    (hbefore' : Space before') (hentry : Entry text value)
    (heq : before ++ (text ++ tail) = before' ++ (f x ++ rest)) (htail : EndsNumber tail)
    (hrest : EndsNumber rest) : possible x ∧ value = g x ∧ tail = rest := by
  have hx := List.mem_cons_self (a := x) (l := list)
  have htext := space_unique hbefore ((h.opens hentry).stops tail) hbefore'
    ((h.opens_entry x hx).stops rest) heq
  exact h.determines x hx hentry htext htail hrest

theorem endsNumber_further (depth : Nat) (entries : List Text) {rest : Text}
    (hrest : EndsNumber rest) : EndsNumber (further depth entries ++ rest) := by
  cases entries with
  | nil => exact hrest
  | cons entry entries => exact endsNumber_of_closer (by decide) _

theorem Separated.endsNumber {more : Text} {values : List α} (h : Separated Entry more values)
    {rest : Text} (hrest : EndsNumber rest) : EndsNumber (more ++ rest) := by
  cases h with
  | nil => exact hrest
  | cons hbefore =>
      rw [List.append_assoc]
      exact endsNumber_space hbefore (endsNumber_of_closer (by decide) _)

/-- Further entries, up to the bracket behind them. -/
theorem Separated.determined (hlast : last ∈ closers) (hcomma : ',' ≠ last)
    (h : Distinct Entry f g possible list) {more behind space tail rest : Text} {values : List α}
    (hmore : Separated Entry more values) (hbehind : Space behind) (hspace : Space space)
    (depth : Nat) (heq : more ++ (behind ++ last :: tail) =
      further depth (list.map f) ++ (space ++ last :: rest)) :
    (∀ x ∈ list, possible x) ∧ values = list.map g ∧ tail = rest := by
  have hcommas (rest : Text) : Text.Stops isSpace (',' :: rest) := stops_of_closer (by decide) rest
  have hlasts (rest : Text) : Text.Stops isSpace (last :: rest) := stops_of_closer hlast rest
  -- on both sides a comma or the bracket follows the white space, so they agree entry by entry
  induction list generalizing more values with
  | nil =>
      cases hmore with
      | nil =>
          have hend := space_unique hbehind (hlasts tail) hspace (hlasts rest) heq
          exact ⟨List.forall_mem_nil _, rfl, (List.cons_eq_cons.mp hend).2⟩
      | cons hbefore =>
          rw [List.append_assoc] at heq
          have hend := space_unique hbefore (hcommas _) hspace (hlasts rest) heq
          exact absurd (List.cons_eq_cons.mp hend).1 hcomma
  | cons x list ih =>
      have hfurther : further depth ((x :: list).map f) ++ (space ++ last :: rest) =
          ',' :: (newLine depth ++
            (f x ++ (further depth (list.map f) ++ (space ++ last :: rest)))) := by
        simp [further]
      rw [hfurther] at heq
      cases hmore with
      | nil =>
          have hend := space_unique hbehind (hlasts tail) space_nil (hcommas _) heq
          exact absurd (List.cons_eq_cons.mp hend).1.symm hcomma
      | cons hbefore hbetween hentry hmore =>
          simp only [List.append_assoc, List.cons_append] at heq
          have hcons := space_unique hbefore (hcommas _) space_nil (hcommas _) heq
          obtain ⟨hx, rfl, hrest⟩ := h.entry hbetween (space_newLine depth) hentry
            (List.cons_eq_cons.mp hcons).2
            (hmore.endsNumber (endsNumber_space hbehind (endsNumber_of_closer hlast tail)))
            (endsNumber_further depth _ (endsNumber_space hspace (endsNumber_of_closer hlast rest)))
          obtain ⟨hlist, rfl, htail⟩ := ih h.tail hmore hrest
          exact ⟨List.forall_mem_cons.mpr ⟨hx, hlist⟩, rfl, htail⟩

/-- What determines its entries determines an array or an object. -/
theorem Bracketed.determined (hlast : last ∈ closers) (hcomma : ',' ≠ last)
    (h : Distinct Entry f g possible list) (depth : Nat) :
    Determines (Bracketed Entry first last) (layout first last depth (list.map f)) (list.map g)
      (∀ x ∈ list, possible x) := by
  intro other denoted tail rest hother heq _ _
  -- a list without entries and one with entries differ where the first entry starts
  have hlasts (rest : Text) : Text.Stops isSpace (last :: rest) := stops_of_closer hlast rest
  cases list with
  | nil =>
      cases hother with
      | empty hbetween =>
          simp only [layout, List.map_nil, List.cons_append, List.append_assoc, List.nil_append,
            List.cons.injEq, true_and] at heq
          have hend := space_unique hbetween (hlasts tail) space_nil (hlasts rest) heq
          exact ⟨List.forall_mem_nil _, rfl, (List.cons_eq_cons.mp hend).2⟩
      | filled hbefore hentry =>
          simp only [layout, List.map_nil, List.cons_append, List.append_assoc, List.nil_append,
            List.cons.injEq, true_and] at heq
          have hend := space_unique hbefore ((h.opens hentry).stops _) space_nil (hlasts rest) heq
          exact absurd hend ((h.opens hentry).append_ne hlast _ _)
  | cons x list =>
      have hopens := h.opens_entry x List.mem_cons_self
      simp only [layout, List.map_cons, List.cons_append, List.append_assoc, List.nil_append] at heq
      cases hother with
      | empty hbetween =>
          simp only [List.cons_append, List.append_assoc, List.nil_append, List.cons.injEq,
            true_and] at heq
          have hend := space_unique hbetween (hlasts tail) (space_newLine _) (hopens.stops _) heq
          exact absurd hend.symm (hopens.append_ne hlast _ _)
      | filled hbefore hentry hmore hbehind =>
          simp only [List.cons_append, List.append_assoc, List.nil_append, List.cons.injEq,
            true_and] at heq
          obtain ⟨hx, rfl, hrest⟩ := h.entry hbefore (space_newLine _) hentry heq
            (hmore.endsNumber (endsNumber_space hbehind (endsNumber_of_closer hlast tail)))
            (endsNumber_further _ _
              (endsNumber_space (space_newLine depth) (endsNumber_of_closer hlast rest)))
          obtain ⟨hlist, rfl, htail⟩ :=
            hmore.determined hlast hcomma h.tail hbehind (space_newLine depth) _ hrest
          exact ⟨List.forall_mem_cons.mpr ⟨hx, hlist⟩, rfl, htail⟩

end Entries

theorem head_eq {text other rest tail more others : Text} {c d : Char}
    (h : text ++ rest = other ++ tail) (htext : text = c :: more) (hother : other = d :: others) :
    c = d := by
  rw [htext, hother] at h
  exact (List.cons_eq_cons.mp h).1

/-! ### Notations of numbers -/

/-- The datum that the notation of a number denotes. -/
def numberDatum (n : DecimalNotation) : Datum :=
  if n.IsInteger then .integer n.integer else .number n.value

/-- What starts like a number is a number. -/
theorem Value.exists_numeral {text : Text} {datum : Datum} (h : Value text datum) {c : Char}
    {more : Text} (htext : text = c :: more) (hc : c = '-' ∨ isDigit c = true) :
    ∃ n : DecimalNotation, text = n.text ∧ datum = numberDatum n := by
  have hall : ∀ d ∈ ['n', 't', 'f', '"', '[', '{'], ¬ (d = '-' ∨ isDigit d = true) :=
    Text.forall_mem_of_all (by decide)
  have hnot : c ∉ ['n', 't', 'f', '"', '[', '{'] := fun hmem => hall c hmem hc
  obtain ⟨d, others, hothers, hleads⟩ := h.exists_cons
  obtain rfl := (List.cons_eq_cons.mp (htext.symm.trans hothers)).1
  cases h with
  | integer n hn => exact ⟨n, rfl, (if_pos hn).symm⟩
  | number n hn => exact ⟨n, rfl, (if_neg hn).symm⟩
  | truth => rcases hleads with rfl | rfl <;> simp at hnot
  | null | string | array | object =>
      rw [Leads] at hleads
      simp [hleads] at hnot

/-- Where the notation of a number stands, nothing else is read. -/
theorem numeral_unique {n : DecimalNotation} {other tail rest : Text} {denoted : Datum}
    (hother : Value other denoted) (heq : other ++ tail = n.text ++ rest)
    (htail : EndsNumber tail) (hrest : EndsNumber rest) :
    denoted = numberDatum n ∧ tail = rest := by
  obtain ⟨c, more, htext, hc⟩ := n.exists_text_eq_cons
  obtain ⟨d, others, hothers, -⟩ := hother.exists_cons
  rw [← head_eq heq hothers htext] at hc
  obtain ⟨m, rfl, hdenoted⟩ := hother.exists_numeral hothers hc
  -- both numbers reach as far as there are characters of numbers
  obtain ⟨hsame, hend⟩ := Text.run_unique
    (fun _ => DecimalNotation.isNumeralChar_of_mem_text) htail
    (fun _ => DecimalNotation.isNumeralChar_of_mem_text) hrest heq
  obtain rfl := DecimalNotation.text_injective hsame
  exact ⟨hdenoted, hend⟩

/-- A word that stands for an infinite value or for none is no value. -/
theorem not_value_word {other tail rest : Text} {denoted : Datum} (hother : Value other denoted)
    {c : Char} (hc : c = 'I' ∨ c = 'N') : other ++ tail ≠ c :: rest := by
  obtain ⟨d, more, rfl, hleads⟩ := hother.exists_cons
  intro heq
  obtain rfl := (List.cons_eq_cons.mp heq).1
  cases denoted <;> rcases hc with rfl | rfl <;> simp [Leads, isDigit] at hleads

/-- No digit follows the minus sign of an infinite value. -/
theorem not_value_minus {other tail rest : Text} {denoted : Datum} (hother : Value other denoted) :
    other ++ tail ≠ '-' :: 'I' :: rest := by
  obtain ⟨d, more, hmore, -⟩ := hother.exists_cons
  intro heq
  have hfirst : d = '-' := by
    rw [hmore] at heq
    exact (List.cons_eq_cons.mp heq).1
  obtain ⟨n, rfl, -⟩ := hother.exists_numeral hmore (.inl hfirst)
  -- behind its minus sign, if it has one, a number starts with a digit
  obtain ⟨e, digits, hwhole, hdigit⟩ := n.exists_whole_eq_cons
  rw [DecimalNotation.text, hwhole] at heq
  cases hnegative : n.negative <;> simp [hnegative, Binary64.signText] at heq <;>
    · rw [heq.1] at hdigit
      exact absurd hdigit (by decide)

/-- The notation of a number determines it, if it is finite; otherwise it is no value. -/
theorem determines_numberText (value : Binary64) :
    Determines Value (numberText value) (.number value) (IsFinite (.number value)) := by
  intro other denoted tail rest hother heq htail hrest
  cases value with
  | finite negative rank =>
      obtain ⟨n, htext, hinteger, hvalue⟩ := DecimalNotation.exists_of_finite negative rank
      rw [numberText, ← htext] at heq
      obtain ⟨hdenoted, hend⟩ := numeral_unique hother heq htail hrest
      rw [numberDatum, if_neg hinteger, hvalue] at hdenoted
      exact ⟨.number negative rank, hdenoted, hend⟩
  | infinite negative =>
      cases negative with
      | false => exact absurd heq (not_value_word hother (.inl rfl))
      | true => exact absurd heq (not_value_minus hother)
  | nan => exact absurd heq (not_value_word hother (.inr rfl))

/-! ### Notations of values -/

theorem opens_write (json : Json) (depth : Nat) : Opens (write depth json) := by
  have hopens (c : Char) (more : Text) (h : isSpace c = false ∧ c ∉ closers) : Opens (c :: more) :=
    ⟨c, more, rfl, h⟩
  cases json with
  | null => exact hopens _ _ (by decide)
  | integer value => exact (value_write (.integer value) depth).opens
  | number value =>
      cases value with
      | finite negative rank => exact (value_write (.number negative rank) depth).opens
      | infinite negative => cases negative <;> exact hopens _ _ (by decide)
      | nan => exact hopens _ _ (by decide)
  | string => exact hopens _ _ (by decide)
  | array items =>
      rw [write_array]
      cases items <;> exact hopens _ _ (by decide)
  | object members =>
      rw [write_object]
      cases members <;> exact hopens _ _ (by decide)

theorem opens_writeMember (member : Text × Json) (depth : Nat) :
    Opens (writeMember depth member) :=
  ⟨'"', _, rfl, by decide⟩

theorem Member.opens {text : Text} {member : List Nat × Datum} (h : Member Value text member) :
    Opens text := by
  cases h with
  | intro hkey => cases hkey with | intro => exact ⟨'"', _, rfl, by decide⟩

/-- The notation of a member determines it if the notation of its value does. -/
theorem determines_writeMember {depth : Nat} {member : Text × Json} {possible : Prop}
    (h : Determines Value (write depth member.2) member.2.datum possible) :
    Determines (Member Value) (writeMember depth member) (memberDatum member) possible := by
  intro other denoted tail rest hother heq htail hrest
  have hcolon (rest : Text) : Text.Stops isSpace (':' :: rest) := Text.stops_cons rfl rest
  have hblank : Space [' '] := List.forall_mem_singleton.mpr rfl
  cases hother with
  | intro hkey hbefore hbehind hentry =>
      simp only [writeMember, List.append_assoc, List.cons_append] at heq
      obtain ⟨rfl, hnext⟩ := hkey.unique (quoted_quoted member.1) heq
      have hcons := space_unique hbefore (hcolon _) space_nil (hcolon _) hnext
      have hafter := (List.cons_eq_cons.mp hcons).2
      rw [← List.singleton_append] at hafter
      have hvalue := space_unique hbehind (hentry.opens.stops _) hblank
        ((opens_write member.2 depth).stops rest) hafter
      obtain ⟨hpossible, rfl, hend⟩ := h hentry hvalue htail hrest
      exact ⟨hpossible, rfl, hend⟩

/-- The notation of a value determines it, if its numbers are finite; otherwise it is no value. -/
theorem determines_write (json : Json) (depth : Nat) :
    Determines Value (write depth json) json.datum json.IsFinite := by
  -- the first character tells which production was used, and the rest follows from its parts
  induction json using Json.induction generalizing depth with
  | null =>
      intro other denoted tail rest hother heq htail hrest
      obtain ⟨c, more, hmore, hleads⟩ := hother.exists_cons
      obtain rfl : c = 'n' := head_eq heq hmore rfl
      cases hother with
      | null => exact ⟨.null, rfl, List.append_cancel_left heq⟩
      | truth | integer | number | string | array | object => simp [Leads, isDigit] at hleads
  | integer value =>
      intro other denoted tail rest hother heq htail hrest
      obtain ⟨n, htext, hinteger, hvalue⟩ := DecimalNotation.exists_of_int value
      rw [write, ← htext] at heq
      obtain ⟨hdenoted, hend⟩ := numeral_unique hother heq htail hrest
      rw [numberDatum, if_pos hinteger, hvalue] at hdenoted
      exact ⟨.integer value, hdenoted, hend⟩
  | number value => exact determines_numberText value
  | string value =>
      intro other denoted tail rest hother heq htail hrest
      obtain ⟨c, more, hmore, hleads⟩ := hother.exists_cons
      obtain rfl : c = '"' := head_eq heq hmore rfl
      cases hother with
      | string hquoted =>
          obtain ⟨rfl, hend⟩ := hquoted.unique (quoted_quoted value) heq
          exact ⟨.string value, rfl, hend⟩
      | null | truth | integer | number | array | object => simp [Leads, isDigit] at hleads
  | array items ih =>
      intro other denoted tail rest hother heq htail hrest
      obtain ⟨c, more, hmore, hleads⟩ := hother.exists_cons
      rw [write_array] at heq
      obtain rfl : c = '[' := by cases items <;> exact head_eq heq hmore rfl
      cases hother with
      | array hitems =>
          have hdistinct : Distinct Value (write (depth + 1)) datum IsFinite items :=
            ⟨Value.opens, fun item _ => opens_write item _, fun item hitem => ih item hitem _⟩
          obtain ⟨hfinite, rfl, hend⟩ := Bracketed.determined (by decide) (by decide) hdistinct
            depth hitems heq htail hrest
          rw [datum, itemData_eq]
          exact ⟨.array hfinite, rfl, hend⟩
      | null | truth | integer | number | string | object => simp [Leads, isDigit] at hleads
  | object members ih =>
      intro other denoted tail rest hother heq htail hrest
      obtain ⟨c, more, hmore, hleads⟩ := hother.exists_cons
      rw [write_object] at heq
      obtain rfl : c = '\x7b' := by cases members <;> exact head_eq heq hmore rfl
      cases hother with
      | object hmembers =>
          have hdistinct : Distinct (Member Value) (writeMember (depth + 1)) memberDatum
              (fun member => member.2.IsFinite) members :=
            ⟨Member.opens, fun member _ => opens_writeMember member _,
              fun member hmember => determines_writeMember (ih member hmember _)⟩
          obtain ⟨hfinite, rfl, hend⟩ := Bracketed.determined (by decide) (by decide) hdistinct
            depth hmembers heq htail hrest
          rw [datum, memberData_eq]
          exact ⟨.object hfinite, rfl, hend⟩
      | null | truth | integer | number | string | array => simp [Leads, isDigit] at hleads

/-! ### Documents -/

/-- The notation of a value with a line feed behind it is a document that denotes the value and
nothing else, if all numbers of the value are finite; otherwise it is no document. -/
theorem document_iff (json : Json) (denoted : Datum) :
    Document (write 0 json ++ ['\n']) denoted ↔ json.IsFinite ∧ denoted = json.datum := by
  have hfeed : Space ['\n'] := List.forall_mem_singleton.mpr rfl
  constructor
  · rintro ⟨before, value, behind, hbefore, hvalue, hbehind, heq⟩
    have hnext := space_unique hbefore (hvalue.opens.stops behind) space_nil
      ((opens_write json 0).stops ['\n']) heq.symm
    have hends {space : Text} (hspace : Space space) : EndsNumber space := by
      have hnil := endsNumber_space hspace (Text.stops_nil _)
      rwa [List.append_nil] at hnil
    obtain ⟨hfinite, hdenoted, -⟩ :=
      determines_write json 0 hvalue hnext (hends hbehind) (hends hfeed)
    exact ⟨hfinite, hdenoted⟩
  · rintro ⟨hfinite, rfl⟩
    exact ⟨[], write 0 json, ['\n'], space_nil, value_write hfinite 0, hfeed, rfl⟩

end Json
end LoxLexer
