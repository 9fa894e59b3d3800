import LoxLexer.Storage.FileTree

/-!
# Access to files

What reading and writing come to, told by what stands where a path leads.  A file that was written
is read back as it was written: no directory on the way to it changes.

* `FileTree.Holds`, `FileTree.IsNullDevice` — a path leads to a file, or to the null device.
* `FileTree.isFile_eq_ok_true_iff`, `FileTree.read_eq_ok_iff` — when a path is a file, and what is
  read there.
* `FileTree.follow_put` — writing a file leaves every way as it is.
* `FileTree.Rewrites`, `FileTree.rewrites_of_write` — what was written is held afterwards, and
  nothing else has changed.
-/

namespace LoxLexer

/-- Taking one key out of a table leaves the other keys what they stand for. -/
theorem lookup_filter_ne {α β : Type} [DecidableEq α] [BEq α] [LawfulBEq α]
    (entries : List (α × β)) {key other : α} (h : other ≠ key) :
    (entries.filter (·.1 ≠ key)).lookup other = entries.lookup other := by
  induction entries with
  | nil => rfl
  | cons entry entries ih =>
      obtain ⟨here, what⟩ := entry
      by_cases hhere : here = key
      · subst hhere
        rw [List.filter_cons_of_neg (by simp), ih, List.lookup_cons, beq_false_of_ne h]
      · rw [List.filter_cons_of_pos (by simpa using hhere), List.lookup_cons, List.lookup_cons, ih]

namespace FileTree

/-- The path leads to a file of the content. -/
def Holds (tree : FileTree) (path : Path) (content : Bytes) : Prop :=
  ∃ location, tree.follow path = .ok location ∧ tree.entry? location = some (.file content)

/-- The path leads to the null device. -/
def IsNullDevice (tree : FileTree) (path : Path) : Prop :=
  ∃ location, tree.follow path = .ok location ∧ tree.entry? location = some .nullDevice

variable {tree : FileTree} {path : Path}

/-! ### Reading -/

theorem isFile_eq_ok_true_iff :
    tree.isFile path = .ok true ↔ ∃ content, tree.Holds path content := by
  unfold isFile Holds
  cases hfollow : tree.follow path with
  | error error =>
      constructor
      · intro h
        split at h
        · contradiction
        · contradiction
        · exact absurd (Except.ok.inj h) Bool.false_ne_true
      · rintro ⟨content, location, hlocation, -⟩
        contradiction
  | ok location =>
      cases hentry : tree.entry? location with
      | none => simp [hentry]
      | some entry => cases entry <;> simp [hentry]

/-- A file is read as it is, and the null device as if it were an empty one. -/
theorem read_eq_ok_iff {content : Bytes} :
    tree.read path = .ok content ↔
      tree.Holds path content ∨ tree.IsNullDevice path ∧ content = [] := by
  unfold read Holds IsNullDevice
  cases tree.follow path with
  | error error => simp
  | ok location =>
      cases hentry : tree.entry? location with
      | none => simp [hentry]
      | some entry => cases entry <;> simp [hentry, eq_comm]

theorem Holds.read_eq {content : Bytes} (h : tree.Holds path content) :
    tree.read path = .ok content :=
  read_eq_ok_iff.mpr (.inl h)

theorem Holds.unique {content content' : Bytes} (h : tree.Holds path content)
    (h' : tree.Holds path content') : content = content' :=
  Except.ok.inj (h.read_eq.symm.trans h'.read_eq)

theorem follow_eq_nullCharacter_iff (tree : FileTree) :
    tree.follow path = .error .nullCharacter ↔ '\x00' ∈ path.toText := by
  unfold follow
  dsimp only
  split
  · exact iff_of_true rfl ‹_›
  · refine iff_of_false ?_ ‹_›
    split
    · nofun
    · rcases tree.walk _ path.names <;> nofun

theorem read_eq_nullCharacter_iff (tree : FileTree) :
    tree.read path = .error .nullCharacter ↔ '\x00' ∈ path.toText := by
  rw [← tree.follow_eq_nullCharacter_iff]
  unfold read
  cases tree.follow path with
  | error error => simp
  | ok location =>
      cases hentry : tree.entry? location with
      | none => simp [hentry]
      | some entry => cases entry <;> simp [hentry]

/-! ### Writing -/

variable {location other : Location} {content : Bytes}

theorem entry?_put_self (h : location ≠ []) :
    FileTree.entry? (tree.put location content) location = some (.file content) := by
  have hnone : (tree.entries.filter (·.1 ≠ location)).lookup location = none := by
    rw [List.lookup_eq_none_iff]
    intro entry hentry
    have hne := (List.mem_filter.mp hentry).2
    rw [decide_eq_true_eq] at hne
    exact bne_iff_ne.mpr (Ne.symm hne)
  unfold entry?
  rw [if_neg h, put, List.lookup_append, hnone]
  simp

theorem entry?_put_of_ne (h : other ≠ location) :
    FileTree.entry? (tree.put location content) other = tree.entry? other := by
  unfold entry?
  rw [put, List.lookup_append, lookup_filter_ne _ h]
  simp [List.lookup_cons, beq_false_of_ne h]

/-- Only directories are walked through, and none is written to. -/
theorem walk_put {here reached : Location} {names : List Text}
    (hlocation : tree.entry? location ≠ some .directory)
    (h : tree.walk here names = .ok reached) :
    (tree.put location content).walk here names = .ok reached := by
  induction names generalizing here with
  | nil => exact h
  | cons name names ih =>
      unfold walk at h ⊢
      cases hhere : tree.entry? here with
      | none => simp [hhere] at h
      | some entry =>
          cases entry with
          | file => simp [hhere] at h
          | nullDevice => simp [hhere] at h
          | directory =>
              have hne : here ≠ location := by
                rintro rfl
                exact hlocation hhere
              simp only [hhere, entry?_put_of_ne hne] at h ⊢
              split at h
              · contradiction
              · rw [if_neg ‹_›]
                split at h
                · rw [if_pos ‹_›]
                  exact ih h
                · rw [if_neg ‹_›]
                  exact ih h

theorem follow_put {reached : Location} (hlocation : tree.entry? location ≠ some .directory)
    (h : tree.follow path = .ok reached) :
    (tree.put location content).follow path = .ok reached := by
  unfold follow at h ⊢
  dsimp only at h ⊢
  split at h
  · contradiction
  · rw [if_neg ‹_›]
    split at h
    · contradiction
    · rw [if_neg ‹_›]
      cases hwalk : tree.walk (if path.root = .relative then tree.workingDirectory else [])
          path.names with
      | error obstacle =>
          rw [hwalk] at h
          contradiction
      | ok there =>
          rw [hwalk] at h
          rw [show (tree.put location content).workingDirectory = tree.workingDirectory from rfl,
            walk_put hlocation hwalk]
          exact h

/-- What a write comes to: the null device drops it, and whatever else is no directory becomes a
file. -/
theorem write_cases {after : FileTree} (h : tree.write path content = .ok after) :
    ∃ location, tree.follow path = .ok location ∧
      (tree.entry? location = some .nullDevice ∧ after = tree ∨
        location ≠ [] ∧ tree.entry? location ≠ some .directory ∧
          after = tree.put location content) := by
  unfold write at h
  cases hfollow : tree.follow path with
  | error error =>
      rw [hfollow] at h
      contradiction
  | ok location =>
      refine ⟨location, rfl, ?_⟩
      simp only [hfollow] at h
      split at h
      · contradiction
      · exact .inl ⟨‹_›, (Except.ok.inj h).symm⟩
      · have hlocation : tree.entry? location ≠ some .directory := by assumption
        have hne : location ≠ [] := by
          rintro rfl
          exact hlocation rfl
        exact .inr ⟨hne, hlocation, (Except.ok.inj h).symm⟩

/-- `before.Rewrites path content after`: the path leads to a file of the content, which may be new,
and nothing else has become another. -/
structure Rewrites (before : FileTree) (path : Path) (content : Bytes) (after : FileTree) :
    Prop where
  holds : after.Holds path content
  elsewhere : ∀ location, before.follow path ≠ .ok location →
    after.entry? location = before.entry? location
  workingDirectory_eq : after.workingDirectory = before.workingDirectory

/-- A write changes the file at its path and nothing else, unless the null device dropped it. -/
theorem rewrites_of_write {after : FileTree} (h : tree.write path content = .ok after) :
    tree.Rewrites path content after ∨ tree.IsNullDevice path ∧ after = tree := by
  obtain ⟨location, hfollow, ⟨hdevice, rfl⟩ | ⟨hne, hlocation, rfl⟩⟩ := write_cases h
  · exact .inr ⟨⟨location, hfollow, hdevice⟩, rfl⟩
  · refine .inl ⟨⟨location, follow_put hlocation hfollow, entry?_put_self hne⟩, ?_, rfl⟩
    intro other hother
    apply entry?_put_of_ne
    rintro rfl
    exact hother hfollow

end FileTree
end LoxLexer
