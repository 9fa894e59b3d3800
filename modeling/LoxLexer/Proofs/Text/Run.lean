import LoxLexer.Text.Basic

/-!
# Runs of characters of one class

Comments, strings, numbers and words go on as long as their characters do.  A run is written as a
text of such characters before a rest that does not go on with one.

* `Text.Stops` — a run ends before a rest.
* `Text.exists_run` — every text is a run and a rest.
* `Text.takeWhile_run`, `Text.dropWhile_run` — the run is found whole and is not exceeded.
-/

namespace LoxLexer
namespace Text

/-- What is tried with every character of a text holds for each of them. -/
theorem forall_mem_of_all {property : Char → Prop} [DecidablePred property] {text : Text}
    (h : text.all (fun c => decide (property c)) = true) : ∀ c ∈ text, property c :=
  fun c hc => of_decide_eq_true (List.all_eq_true.mp h c hc)

theorem decide_ne_of_notMem {x : Char} {text : Text} (h : x ∉ text) :
    ∀ c ∈ text, decide (c ≠ x) = true := by
  intro c hc
  apply decide_eq_true
  rintro rfl
  exact h hc

/-- A run of characters with the property ends before `rest`: nothing follows, or a character
without it. -/
def Stops (property : Char → Bool) (rest : Text) : Prop :=
  ∀ c, rest.head? = some c → property c = false

theorem stops_nil (property : Char → Bool) : Stops property [] := by
  intro c h
  cases h

theorem stops_cons {property : Char → Bool} {c : Char} (h : property c = false) (rest : Text) :
    Stops property (c :: rest) := by
  intro d hd
  cases hd
  exact h

/-- What follows a run does not matter beyond its first character. -/
theorem Stops.append {property : Char → Bool} {rest more : Text} (h : Stops property rest)
    (hmore : Stops property more) : Stops property (rest ++ more) := by
  cases rest with
  | nil => exact hmore
  | cons c rest => exact stops_cons (h c rfl) _

/-- Every text is a run of characters with a property and a rest before which the run ends. -/
theorem exists_run (property : Char → Bool) (text : Text) :
    text = text.takeWhile property ++ text.dropWhile property ∧
      (∀ c ∈ text.takeWhile property, property c = true) ∧
      Stops property (text.dropWhile property) := by
  refine ⟨List.takeWhile_append_dropWhile.symm, List.all_eq_true.mp List.all_takeWhile, ?_⟩
  intro c hc
  have hstop := List.head?_dropWhile_not property text
  rw [hc] at hstop
  simpa using hstop

section Run

variable {property : Char → Bool} {body rest : Text} (hbody : ∀ c ∈ body, property c = true)
  (hrest : Stops property rest)

include hbody hrest

theorem takeWhile_run : (body ++ rest).takeWhile property = body := by
  rw [List.takeWhile_append_of_pos hbody]
  cases rest with
  | nil => simp
  | cons c rest => simp [hrest c rfl]

theorem dropWhile_run : (body ++ rest).dropWhile property = rest := by
  rw [List.dropWhile_append_of_pos hbody]
  cases rest with
  | nil => rfl
  | cons c rest => simp [hrest c rfl]

end Run

/-- A text can be cut after a run in one way only. -/
theorem run_unique {property : Char → Bool} {body rest body' rest' : Text}
    (hbody : ∀ c ∈ body, property c = true) (hrest : Stops property rest)
    (hbody' : ∀ c ∈ body', property c = true) (hrest' : Stops property rest')
    (h : body ++ rest = body' ++ rest') : body = body' ∧ rest = rest' := by
  constructor
  · rw [← takeWhile_run hbody hrest, h, takeWhile_run hbody' hrest']
  · rw [← dropWhile_run hbody hrest, h, dropWhile_run hbody' hrest']

/-- Characters of the class at the front of a text do not reach beyond the run there. -/
theorem length_le_of_run {property : Char → Bool} {body rest more : Text} (tail : Text)
    (hrest : Stops property rest) (hmore : ∀ c ∈ more, property c = true)
    (h : more ++ tail = body ++ rest) : more.length ≤ body.length := by
  rcases List.append_eq_append_iff.mp h with ⟨between, rfl, -⟩ | ⟨between, rfl, hstop⟩
  · simp
  · -- what is left of `more` behind the run would have to start with the character that ends it
    cases between with
    | nil => simp
    | cons c between =>
        have hc : property c = true := hmore c (by simp)
        rw [hrest c (by simp [hstop])] at hc
        contradiction

end Text
end LoxLexer
