import LoxLexer.Command.Arguments

/-!
# Reading a command line

A command line that is accepted starts with the name of the command, and the arguments of the
command are all that follows.  An option that is put right behind the name is set first.

* `Takes`, `takes_of_setOption` — what an option takes of the items behind it.
* `exists_classify_programFlags` — the program itself finds no argument ambiguous.
* `read_tokenize`, `exists_of_read` — what follows the name of the command decides.
* `read_debug` — asking for debugging changes nothing else.
-/

namespace LoxLexer
namespace Command

variable {words rest : List Text} {arguments : Arguments}

theorem exists_of_map_eq_ok {ε α β : Type} {f : α → β} {x : Except ε α} {b : β}
    (h : x.map f = .ok b) : ∃ a, x = .ok a ∧ b = f a := by
  cases x with
  | error => contradiction
  | ok a => exact ⟨a, rfl, (Except.ok.inj h).symm⟩

/-- What no event takes off a list stays there. -/
theorem prefix_of_foldlM {σ ε : Type} {step : σ → ε → Except Notice σ} {list : σ → List Text}
    (hstep : ∀ {state event next}, step state event = .ok next → list state <+: list next)
    {events : List ε} {first last : σ} (h : events.foldlM step first = .ok last) :
    list first <+: list last := by
  induction events generalizing first with
  | nil =>
      obtain rfl := Except.ok.inj h
      exact List.prefix_rfl
  | cons event events ih =>
      rw [List.foldlM_cons] at h
      rcases hfirst : step first event with notice | next
      · rw [hfirst] at h
        contradiction
      · rw [hfirst] at h
        exact (hstep hfirst).trans (ih h)

/-! ### What an option takes -/

section Options

variable {α : Type} {flags : List (Flag α)} {flag : Flag α} {found : List (Event α)}
  {behind : List (Item α)} {count : Nat}

/-- A reading sets an option first, and perhaps others.  It takes nothing of the items behind,
whatever they are, or the first if it is plain. -/
inductive Takes (reading : List (Item α) → Except Text (List (Event α) × Nat)) (flag : Flag α) :
    List (Event α) → List (Item α) → Nat → Prop
  | none {values more behind} (h : ∀ other, reading other = .ok (.set flag values :: more, 0)) :
      Takes reading flag (.set flag values :: more) behind 0
  | one {values more item rest} (hplain : item.isPlain)
      (h : ∀ other, reading (item :: other) = .ok (.set flag values :: more, 1)) :
      Takes reading flag (.set flag values :: more) (item :: rest) 1

theorem Takes.afterFlag {reading : List (Item α) → Except Text (List (Event α) × Nat)}
    (h : Takes reading flag found behind count) (first : Flag α) :
    Takes (fun behind => (reading behind).map fun (found, count) => (.set first [] :: found, count))
      first (.set first [] :: found) behind count := by
  cases h with
  | none h => exact .none fun other => by rw [h]; rfl
  | one hplain h => exact .one hplain fun other => by rw [h]; rfl

theorem takes_of_setApart (h : setApart flag behind = .ok (found, count)) :
    Takes (setApart flag) flag found behind count := by
  unfold setApart at h
  split at h
  · split at h
    · split at h
      · obtain ⟨rfl, rfl⟩ := Prod.mk.inj (Except.ok.inj h)
        refine .one ‹_› fun other => ?_
        rw [setApart, if_pos ‹_›]
        exact if_pos ‹_›
      · contradiction
    · contradiction
  · obtain ⟨rfl, rfl⟩ := Prod.mk.inj (Except.ok.inj h)
    refine .none fun other => ?_
    unfold setApart
    rw [if_neg ‹_›]

theorem takes_of_setJoined {isShort : Bool} {joined : Text}
    (h : setJoined flags flag isShort behind joined = .ok (found, count)) :
    Takes (setJoined flags flag isShort · joined) flag found behind count := by
  induction joined generalizing flag isShort found with
  | nil =>
      unfold setJoined at h
      split at h
      · obtain ⟨rfl, rfl⟩ := Prod.mk.inj (Except.ok.inj h)
        exact .none fun other => by rw [setJoined, if_pos ‹_›]
      · contradiction
  | cons c joined ih =>
      unfold setJoined at h ⊢
      by_cases hvalue : flag.takesValue
      · simp only [if_pos hvalue] at h ⊢
        obtain ⟨rfl, rfl⟩ := Prod.mk.inj (Except.ok.inj h)
        exact .none fun other => rfl
      · simp only [if_neg hvalue] at h ⊢
        cases isShort with
        | false => contradiction
        | true =>
            simp only [if_true] at h ⊢
            cases hnext : Flag.find? flags ['-', c] with
            | none =>
                rw [hnext] at h
                contradiction
            | some next =>
                rw [hnext] at h
                obtain ⟨⟨further, count'⟩, hfurther, heq⟩ := exists_of_map_eq_ok h
                obtain ⟨rfl, rfl⟩ := Prod.mk.inj heq
                by_cases hlast : joined = []
                · simp only [if_pos hlast] at hfurther ⊢
                  exact (takes_of_setApart hfurther).afterFlag flag
                · simp only [if_neg hlast] at hfurther ⊢
                  exact (ih hfurther).afterFlag flag

theorem takes_of_setOption {occurrence : Occurrence α}
    (h : setOption flags occurrence behind = .ok (found, count)) :
    Takes (setOption flags occurrence) occurrence.flag found behind count := by
  unfold setOption at h ⊢
  split at h
  · exact takes_of_setApart h
  · exact takes_of_setJoined h

end Options

/-! ### The program -/

theorem splitEquals_dashes {text : Text} (h : ['-', '-'].isPrefixOf text) :
    ∃ rest, (splitEquals text).1 = '-' :: '-' :: rest := by
  obtain ⟨rest, rfl⟩ := List.isPrefixOf_iff_prefix.mp h
  unfold splitEquals
  split
  · exact ⟨rest.takeWhile (· ≠ '='), by simp⟩
  · exact ⟨rest, rfl⟩

theorem length_filter_names {p : Text → Bool}
    (h : ¬(p "-h".toList ∧ p "--help".toList)) :
    (["-h".toList, "--help".toList].filter p).length ≤ 1 := by
  simp only [List.filter]
  cases hshort : p "-h".toList <;> cases hlong : p "--help".toList <;> simp_all

/-- The program has one option, and no argument begins like both its names. -/
theorem length_candidates_programFlags (text : Text) :
    (candidates programFlags text).length ≤ 1 := by
  unfold candidates
  split
  · obtain ⟨rest, hstart⟩ := splitEquals_dashes ‹_›
    have hnot : ¬((splitEquals text).1.isPrefixOf "-h".toList ∧
        (splitEquals text).1.isPrefixOf "--help".toList) := by
      rw [hstart]
      simp
    simpa [programFlags] using length_filter_names hnot
  · have hnot : ¬(decide ("-h".toList = text.take 2) ∧
        decide ("--help".toList = text.take 2)) := by
      rintro ⟨hshort, hlong⟩
      have := (of_decide_eq_true hshort).trans (of_decide_eq_true hlong).symm
      contradiction
    simpa [programFlags] using length_filter_names (p := (decide <| · = text.take 2)) hnot

theorem exists_look_programFlags (text : Text) : ∃ look', look programFlags text = .ok look' := by
  have hguess : ∃ look', look.guess programFlags text = .ok look' := by
    have hlength := length_candidates_programFlags text
    unfold look.guess
    match candidates programFlags text, hlength with
    | [occurrence], _ => exact ⟨_, rfl⟩
    | [], _ => exact ⟨_, rfl⟩
  unfold look
  split
  · exact ⟨_, rfl⟩
  · split
    · exact ⟨_, rfl⟩
    · split
      · exact ⟨_, rfl⟩
      · split
        · split
          · exact ⟨_, rfl⟩
          · exact hguess
        · exact hguess

theorem exists_classify_programFlags (words : List Text) :
    ∃ items, classify programFlags words = .ok items ∧ items.map Item.text = words := by
  induction words with
  | nil => exact ⟨[], rfl, rfl⟩
  | cons text rest ih =>
      obtain ⟨items, hitems, htexts⟩ := ih
      unfold classify
      split
      · exact ⟨_, rfl, by simp [Function.comp_def]⟩
      · obtain ⟨look', hlook⟩ := exists_look_programFlags text
        rw [hlook, hitems]
        exact ⟨_, rfl, congrArg _ htexts⟩

/-- What a command that has been carried out leaves to the program. -/
def conclude : Arguments × List Text → Except Notice Arguments
  | (arguments, []) => .ok arguments
  | (_, extras) => .error (programMistake (unrecognized extras))

theorem read_tokenize (rest : List Text) :
    Arguments.read (tokenize :: rest) = readTokenize rest >>= conclude := by
  obtain ⟨items, hitems, htexts⟩ := exists_classify_programFlags rest
  have hclassify : classify programFlags (tokenize :: rest) =
      .ok (⟨tokenize, .plain⟩ :: items) := by
    unfold classify
    rw [hitems]
    rfl
  have hevents : events programFlags (some .remaining) (⟨tokenize, .plain⟩ :: items) =
      [.operand (tokenize :: rest)] := by
    rw [events]
    simp [operandCount, operandEvent, Item.isPlain, Item.isSeparator, htexts, events]
  rw [Arguments.read, hclassify]
  show ((events programFlags (some .remaining) (⟨tokenize, .plain⟩ :: items)).foldlM step
      (none, []) >>= _) = _
  rw [hevents, List.foldlM_cons, step, carryOut, if_pos rfl]
  rcases readTokenize rest with notice | ⟨arguments, - | ⟨extra, extras⟩⟩ <;> rfl

theorem carryOut_extras {extras : List Text} {progress : Progress}
    (h : carryOut extras words = .ok progress) : extras <+: progress.2 := by
  unfold carryOut at h
  split at h
  · obtain rfl := Except.ok.inj h
    exact List.prefix_rfl
  · split at h
    · rcases hread : readTokenize _ with notice | ⟨arguments, more⟩
      · rw [hread] at h
        contradiction
      · rw [hread] at h
        obtain rfl := Except.ok.inj h
        exact List.prefix_append _ _
    · contradiction

/-- What is left over stays left over. -/
theorem step_extras {progress progress' : Progress} {event : Event Unit}
    (h : step progress event = .ok progress') : progress.2 <+: progress'.2 := by
  cases event with
  | set => contradiction
  | mistake => contradiction
  | extra text =>
      obtain rfl := Except.ok.inj h
      exact List.prefix_append _ _
  | operand words => exact carryOut_extras h

/-- Only the name of the command gets the program anywhere. -/
theorem starts_of_foldlM {items : List (Item Unit)} {progress : Progress}
    (h : (events programFlags (some .remaining) items).foldlM step (none, []) = .ok progress)
    (hcommand : progress.1 ≠ none) (hextras : progress.2 = []) :
    ∃ rest, items.map Item.text = tokenize :: rest := by
  cases items with
  | nil =>
      rw [events] at h
      obtain rfl := Except.ok.inj h
      contradiction
  | cons item items =>
      have hextra {found : List (Event Unit)} :
          (.extra item.text :: found).foldlM step (none, []) ≠ .ok progress := by
        intro h
        replace h : found.foldlM step (none, [item.text]) = .ok progress := h
        have hover := prefix_of_foldlM step_extras h
        simp [hextras] at hover
      rw [events] at h
      split at h
      · exact absurd h hextra
      · split at h
        · contradiction
        · cases takes_of_setOption ‹_› <;> contradiction
      · split at h
        · rw [List.foldlM_cons, operandEvent, List.take_succ_cons, List.map_cons, step,
            carryOut] at h
          split at h
          · exact ⟨items.map Item.text, by rw [List.map_cons, ‹item.text = tokenize›]⟩
          · contradiction
        · exact absurd h hextra

/-- An accepted command line is the name of the command with arguments that leave nothing over. -/
theorem exists_of_read (h : Arguments.read words = .ok arguments) :
    ∃ rest, words = tokenize :: rest ∧ readTokenize rest = .ok (arguments, []) := by
  have hstart : ∃ rest, words = tokenize :: rest := by
    obtain ⟨items, hitems, rfl⟩ := exists_classify_programFlags words
    rw [Arguments.read, hitems] at h
    replace h : ((events programFlags (some .remaining) items).foldlM step (none, []) >>= _) =
      .ok arguments := h
    rcases hfold : (events programFlags (some .remaining) items).foldlM step (none, []) with
      notice | ⟨- | reached, - | ⟨extra, extras⟩⟩ <;> rw [hfold] at h
    · contradiction
    · contradiction
    · contradiction
    · exact starts_of_foldlM hfold (by simp) rfl
    · contradiction
  obtain ⟨rest, rfl⟩ := hstart
  refine ⟨rest, rfl, ?_⟩
  rw [read_tokenize] at h
  rcases hread : readTokenize rest with notice | ⟨found, - | ⟨extra, extras⟩⟩ <;> rw [hread] at h
  · contradiction
  · rw [Except.ok.inj h]
  · contradiction

/-! ### Asking for debugging -/

/-- The arguments with debugging asked for. -/
def Arguments.withDebug (arguments : Arguments) : Arguments := { arguments with debug := true }

/-- The draft with debugging asked for. -/
def Draft.withDebug (draft : Draft) : Draft :=
  { draft with arguments := draft.arguments.withDebug }

theorem step_withDebug (draft : Draft) (event : Event Choice) :
    draft.withDebug.step event = (draft.step event).map Draft.withDebug := by
  cases event with
  | set flag values =>
      show draft.withDebug.set flag values = (draft.set flag values).map Draft.withDebug
      unfold Draft.set
      cases flag.meaning with
      | format =>
          dsimp only
          cases formatSetting flag.label (settingOf values) <;> rfl
      | _ => rfl
  | _ => rfl

theorem foldlM_step_withDebug (found : List (Event Choice)) (draft : Draft) :
    found.foldlM Draft.step draft.withDebug =
      (found.foldlM Draft.step draft).map Draft.withDebug := by
  induction found generalizing draft with
  | nil => rfl
  | cons event found ih =>
      rw [List.foldlM_cons, List.foldlM_cons, step_withDebug]
      cases draft.step event with
      | error => rfl
      | ok draft => exact ih draft

/-- The option that asks for debugging. -/
def debugFlag : Flag Choice := ⟨["--debug".toList], false, .debug⟩

/-- The argument that asks for debugging. -/
def debugItem : Item Choice :=
  ⟨"--debug".toList, .option ⟨debugFlag, "--debug".toList, none⟩⟩

theorem classify_debug (rest : List Text) :
    classify tokenizeFlags ("--debug".toList :: rest) =
      (classify tokenizeFlags rest).map (debugItem :: ·) := by
  rw [classify, if_neg (by decide)]
  rfl

theorem events_debug (open? : Option Operands) (items : List (Item Choice)) :
    events tokenizeFlags open? (debugItem :: items) =
      .set debugFlag [] :: events tokenizeFlags open? items := by
  rw [events]
  rfl

theorem readTokenize_debug (rest : List Text) :
    readTokenize ("--debug".toList :: rest) =
      (readTokenize rest).map fun (arguments, extras) => (arguments.withDebug, extras) := by
  rw [readTokenize, readTokenize, classify_debug]
  rcases classify tokenizeFlags rest with message | items
  · rfl
  · have hfold : (events tokenizeFlags (some .one) (debugItem :: items)).foldlM Draft.step {} =
        ((events tokenizeFlags (some .one) items).foldlM Draft.step {}).map Draft.withDebug := by
      rw [events_debug]
      exact foldlM_step_withDebug _ {}
    show ((events tokenizeFlags (some .one) (debugItem :: items)).foldlM Draft.step {} >>= _) =
      ((events tokenizeFlags (some .one) items).foldlM Draft.step {} >>= _).map _
    rw [hfold]
    rcases (events tokenizeFlags (some .one) items).foldlM Draft.step {} with
      notice | ⟨- | input, arguments, extras⟩ <;> rfl

/-- Debugging may be asked for right behind the name of the command. -/
theorem read_debug (rest : List Text) :
    Arguments.read (tokenize :: "--debug".toList :: rest) =
      (Arguments.read (tokenize :: rest)).map Arguments.withDebug := by
  rw [read_tokenize, read_tokenize, readTokenize_debug]
  rcases readTokenize rest with notice | ⟨arguments, - | ⟨extra, extras⟩⟩ <;> rfl

end Command
end LoxLexer
