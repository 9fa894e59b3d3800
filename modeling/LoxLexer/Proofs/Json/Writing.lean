import LoxLexer.Proofs.Json.Strings

/-!
# Values as they are written

The notation of a JSON value whose numbers are all finite denotes the value.  Arrays and objects are
laid out alike, entry by entry, so what is proved of one layout holds of both.

* `Json.induction` — induction over values.
* `Json.datum`, `Json.IsFinite` — what the notation of a value should denote, and when it can.
* `Json.layout` — arrays and objects are written alike.
* `Json.value_write` — the notation denotes the value.
* `Json.isAscii_of_mem_write` — the notation is ASCII.
-/

namespace LoxLexer
namespace Json

/-- Induction over values: an array by its items, an object by its members. -/
theorem induction {motive : Json → Prop} (null : motive .null)
    (integer : ∀ value, motive (.integer value)) (number : ∀ value, motive (.number value))
    (string : ∀ value, motive (.string value))
    (array : ∀ items, (∀ item ∈ items, motive item) → motive (.array items))
    (object : ∀ members, (∀ member ∈ members, motive member.2) → motive (.object members))
    (json : Json) : motive json := by
  match json with
  | .null => exact null
  | .integer value => exact integer value
  | .number value => exact number value
  | .string value => exact string value
  | .array items =>
      exact array items fun item hitem => induction null integer number string array object item
  | .object members =>
      exact object members fun member hmember =>
        induction null integer number string array object member.2
termination_by sizeOf json
decreasing_by
  · have hlt := List.sizeOf_lt_of_mem hitem
    simp only [Json.array.sizeOf_spec]
    omega
  · have hlt := List.sizeOf_lt_of_mem hmember
    have hmember : sizeOf member = 1 + sizeOf member.1 + sizeOf member.2 := by
      cases member
      simp
    simp only [Json.object.sizeOf_spec]
    omega

/-- The code points of a text. -/
def points (text : Text) : List Nat := text.map Char.toNat

mutual

/-- What the notation of a value should denote. -/
def datum : Json → Datum
  | null => .null
  | integer value => .integer value
  | number value => .number value
  | string value => .string (points value)
  | array items => .array (itemData items)
  | object members => .object (memberData members)

/-- What the notations of items should denote. -/
def itemData : List Json → List Datum
  | [] => []
  | item :: items => item.datum :: itemData items

/-- What the notations of members should denote. -/
def memberData : List (Text × Json) → List (List Nat × Datum)
  | [] => []
  | (key, value) :: members => (points key, value.datum) :: memberData members

end

/-- What the notation of a member should denote. -/
def memberDatum (member : Text × Json) : List Nat × Datum := (points member.1, member.2.datum)

theorem itemData_eq (items : List Json) : itemData items = items.map datum := by
  induction items with
  | nil => rfl
  | cons item items ih => rw [itemData, ih, List.map_cons]

theorem memberData_eq (members : List (Text × Json)) :
    memberData members = members.map memberDatum := by
  induction members with
  | nil => rfl
  | cons member members ih =>
      rw [memberData, ih, List.map_cons]
      rfl

/-- Every number of a value is finite. -/
inductive IsFinite : Json → Prop
  | null : IsFinite .null
  | integer (value : Int) : IsFinite (.integer value)
  | number (negative : Bool) (rank : Fin Binary64.finiteRanks) :
      IsFinite (.number (.finite negative rank))
  | string (value : Text) : IsFinite (.string value)
  | array {items : List Json} (h : ∀ item ∈ items, IsFinite item) : IsFinite (.array items)
  | object {members : List (Text × Json)} (h : ∀ member ∈ members, IsFinite member.2) :
      IsFinite (.object members)

/-! ### Arrays and objects are written alike -/

/-- Further entries, each after a comma on a line of its own. -/
def further (depth : Nat) (entries : List Text) : Text :=
  entries.flatMap fun entry => ',' :: (newLine depth ++ entry)

/-- Entries between brackets, each on a line of its own. -/
def layout (first last : Char) (depth : Nat) : List Text → Text
  | [] => [first, last]
  | entry :: entries =>
    first :: (newLine (depth + 1) ++
      (entry ++ (further (depth + 1) entries ++ (newLine depth ++ [last]))))

/-- A member as it is written. -/
def writeMember (depth : Nat) (member : Text × Json) : Text :=
  quoted member.1 ++ ':' :: ' ' :: write depth member.2

theorem write_array (depth : Nat) (items : List Json) :
    write depth (array items) = layout '[' ']' depth (items.map (write (depth + 1))) := by
  have hitems (items : List Json) :
      writeItems (depth + 1) items = further (depth + 1) (items.map (write (depth + 1))) := by
    induction items with
    | nil => rfl
    | cons item items ih => simp [writeItems, further, ih]
  cases items with
  | nil => rfl
  | cons item items => simp [write, layout, hitems]

theorem write_object (depth : Nat) (members : List (Text × Json)) :
    write depth (object members) =
      layout '{' '}' depth (members.map (writeMember (depth + 1))) := by
  have hmembers (members : List (Text × Json)) :
      writeMembers (depth + 1) members =
        further (depth + 1) (members.map (writeMember (depth + 1))) := by
    induction members with
    | nil => rfl
    | cons member members ih => simp [writeMembers, writeMember, further, ih]
  cases members with
  | nil => rfl
  | cons member members => simp [write, layout, writeMember, hmembers]

theorem space_newLine (depth : Nat) : Space (newLine depth) := by
  intro c hc
  obtain rfl | hblank := List.mem_cons.mp hc
  · rfl
  · rw [(List.mem_replicate.mp hblank).2]
    rfl

theorem space_nil : Space [] := List.forall_mem_nil _

section Entries

variable {α β : Type} {Entry : Text → α → Prop} {f : β → Text} {g : β → α} {list : List β}

theorem Separated.of_forall (depth : Nat) (h : ∀ x ∈ list, Entry (f x) (g x)) :
    Separated Entry (further depth (list.map f)) (list.map g) := by
  induction list with
  | nil => exact .nil
  | cons x list ih =>
      obtain ⟨hx, hlist⟩ := List.forall_mem_cons.mp h
      have hmore := Separated.cons space_nil (space_newLine depth) hx (ih hlist)
      simpa [further] using hmore

/-- What is laid out between brackets is an array or an object of what the entries denote. -/
theorem Bracketed.of_forall (first last : Char) (depth : Nat) (h : ∀ x ∈ list, Entry (f x) (g x)) :
    Bracketed Entry first last (layout first last depth (list.map f)) (list.map g) := by
  cases list with
  | nil => exact .empty space_nil
  | cons x list =>
      obtain ⟨hx, hlist⟩ := List.forall_mem_cons.mp h
      exact .filled (space_newLine (depth + 1)) hx (.of_forall (depth + 1) hlist)
        (space_newLine depth)

end Entries

/-! ### The notation denotes the value -/

/-- The notation of a value with finite numbers denotes the value. -/
theorem value_write {json : Json} (h : json.IsFinite) (depth : Nat) :
    Value (write depth json) json.datum := by
  -- arrays and objects come from their entries, which stand one level deeper
  induction json using Json.induction generalizing depth with
  | null => exact .null
  | integer value =>
      obtain ⟨n, htext, hinteger, hvalue⟩ := DecimalNotation.exists_of_int value
      have hn := Value.integer n hinteger
      rwa [htext, hvalue] at hn
  | number value =>
      cases h with
      | number negative rank =>
          obtain ⟨n, htext, hinteger, hvalue⟩ := DecimalNotation.exists_of_finite negative rank
          have hn := Value.number n hinteger
          rwa [htext, hvalue] at hn
  | string value => exact .string (quoted_quoted value)
  | array items ih =>
      cases h with
      | array hitems =>
          rw [write_array, datum, itemData_eq]
          exact .array (.of_forall _ _ depth fun item hitem =>
            ih item hitem (hitems item hitem) (depth + 1))
  | object members ih =>
      cases h with
      | object hmembers =>
          rw [write_object, datum, memberData_eq]
          refine .object (.of_forall _ _ depth fun member hmember => ?_)
          have hvalue := ih member hmember (hmembers member hmember) (depth + 1)
          have hbehind : Space [' '] := List.forall_mem_singleton.mpr rfl
          exact .intro (quoted_quoted member.1) space_nil hbehind hvalue

/-! ### Every notation is ASCII -/

theorem isAscii_of_mem_layout {first last : Char} {depth : Nat} {entries : List Text} {c : Char}
    (hfirst : isAscii first = true) (hlast : isAscii last = true)
    (h : ∀ entry ∈ entries, ∀ c ∈ entry, isAscii c = true)
    (hc : c ∈ layout first last depth entries) : isAscii c = true := by
  have hline (depth : Nat) (hc : c ∈ newLine depth) : isAscii c = true := by
    obtain rfl | hblank := List.mem_cons.mp hc
    · rfl
    · rw [(List.mem_replicate.mp hblank).2]
      rfl
  cases entries with
  | nil =>
      simp only [layout, List.mem_cons, List.not_mem_nil, or_false] at hc
      obtain rfl | rfl := hc <;> assumption
  | cons entry entries =>
      obtain ⟨hentry, hmore⟩ := List.forall_mem_cons.mp h
      simp only [layout, further, List.mem_cons, List.mem_append, List.mem_flatMap,
        List.not_mem_nil, or_false] at hc
      obtain rfl | hc | hc | ⟨other, hother, rfl | hc | hc⟩ | hc | rfl := hc
      · exact hfirst
      · exact hline _ hc
      · exact hentry c hc
      · rfl
      · exact hline _ hc
      · exact hmore other hother c hc
      · exact hline _ hc
      · exact hlast

theorem isAscii_of_mem_numeral {n : DecimalNotation} {c : Char} (h : c ∈ n.text) :
    isAscii c = true := by
  have hall : ∀ d ∈ ['.', 'e', 'E', '+', '-'], isAscii d = true :=
    Text.forall_mem_of_all (by decide)
  have hc := DecimalNotation.isNumeralChar_of_mem_text h
  simp only [DecimalNotation.isNumeralChar, Bool.or_eq_true, decide_eq_true_iff] at hc
  rcases hc with ((((hdigit | hc) | hc) | hc) | hc) | hc
  · obtain ⟨-, hle⟩ := isDigit_iff.mp hdigit
    have hnine : c.toNat ≤ 57 := UInt32.le_iff_toNat_le.mp hle
    exact decide_eq_true (by omega)
  all_goals exact hall c (by simp [hc])

theorem isAscii_of_mem_numberText {value : Binary64} {c : Char} (h : c ∈ numberText value) :
    isAscii c = true := by
  have hall (text : Text) (htext : text.all isAscii = true) (hc : c ∈ text) : isAscii c = true :=
    List.all_eq_true.mp htext c hc
  cases value with
  | finite negative rank =>
      obtain ⟨n, htext, -⟩ := DecimalNotation.exists_of_finite negative rank
      rw [numberText, ← htext] at h
      exact isAscii_of_mem_numeral h
  | infinite negative => cases negative <;> exact hall _ (by decide) h
  | nan => exact hall _ (by decide) h

/-- The notation of a value, finite or not, is ASCII. -/
theorem isAscii_of_mem_write (json : Json) {depth : Nat} {c : Char} (h : c ∈ write depth json) :
    isAscii c = true := by
  induction json using Json.induction generalizing depth c with
  | null => exact List.all_eq_true.mp (by decide : "null".toList.all isAscii = true) c h
  | integer value =>
      obtain ⟨n, htext, -⟩ := DecimalNotation.exists_of_int value
      rw [write, ← htext] at h
      exact isAscii_of_mem_numeral h
  | number value => exact isAscii_of_mem_numberText h
  | string value => exact isAscii_of_mem_quoted h
  | array items ih =>
      rw [write_array] at h
      refine isAscii_of_mem_layout (by decide) (by decide) (fun entry hentry c hc => ?_) h
      obtain ⟨item, hitem, rfl⟩ := List.mem_map.mp hentry
      exact ih item hitem hc
  | object members ih =>
      rw [write_object] at h
      refine isAscii_of_mem_layout (by decide) (by decide) (fun entry hentry c hc => ?_) h
      obtain ⟨member, hmember, rfl⟩ := List.mem_map.mp hentry
      simp only [writeMember, List.mem_append, List.mem_cons] at hc
      obtain hkey | rfl | rfl | hvalue := hc
      · exact isAscii_of_mem_quoted hkey
      · rfl
      · rfl
      · exact ih member hmember hvalue

end Json
end LoxLexer
