import LoxLexer.Proofs.Command.Reading

/-!
# An option among the arguments

An option without value may be put anywhere among the arguments of the command, as long as the
command line is still accepted.  What stands before it is read as if it stood alone: only an option
that lacks its value looks further, and another option is no value.

* `exists_step`, `exists_splits` — one item with what it takes, then all in front of an option.
* `events_insert` — an option that is put in front of other items is set there.
* `read_insert_debug` — asking for debugging anywhere changes nothing else.
-/

namespace LoxLexer
namespace Command

variable {α : Type} {flags : List (Flag α)} {found : List (Event α)} {behind : List (Item α)}
  {count : Nat}

/-! ### Reading up to an option -/

theorem isPlain_of_isOption {item : Item α} (h : item.isOption) : item.isPlain = false := by
  unfold Item.isOption at h
  unfold Item.isPlain
  split at h <;> simp_all

theorem isSeparator_of_isOption {item : Item α} (h : item.isOption) : item.isSeparator = false := by
  unfold Item.isOption at h
  unfold Item.isSeparator
  split at h <;> simp_all

/-- An event for which a command line is not turned down. -/
def Event.isProper : Event α → Bool
  | .set _ _ => true
  | .operand _ => true
  | .extra _ => false
  | .mistake _ => false

/-- Nothing turns the command line down. -/
def Proper (found : List (Event α)) : Prop := ∀ event ∈ found, event.isProper

theorem Proper.right {before after : List (Event α)} (h : Proper (before ++ after)) :
    Proper after :=
  fun event hevent => h event (List.mem_append_right before hevent)

theorem Proper.tail {event : Event α} {after : List (Event α)} (h : Proper (event :: after)) :
    Proper after :=
  fun event hevent => h event (List.mem_cons_of_mem _ hevent)

theorem not_proper_extra {text : Text} {after : List (Event α)} :
    ¬Proper (.extra text :: after) :=
  fun h => Bool.false_ne_true (h _ List.mem_cons_self)

theorem not_proper_mistake {message : Text} {after : List (Event α)} :
    ¬Proper (.mistake message :: after) :=
  fun h => Bool.false_ne_true (h _ List.mem_cons_self)

variable {item : Item α} {open? : Option Operands}

theorem events_option {occurrence : Occurrence α} (hlook : item.look = .option occurrence)
    (h : setOption flags occurrence behind = .ok (found, count)) :
    events flags open? (item :: behind) = found ++ events flags open? (behind.drop count) := by
  rw [events]
  simp [hlook, h]

theorem events_closed (hlook : item.isOption = false) :
    events flags none (item :: behind) = .extra item.text :: events flags none behind := by
  rw [events]
  cases h : item.look with
  | option => simp [Item.isOption, h] at hlook
  | unknown => simp [Item.isOption, h] at hlook
  | _ => simp

/-- A plain argument that the command takes comes with the separators behind it. -/
theorem events_plain (hlook : item.look = .plain) :
    events flags (some .one) (item :: behind) =
      .operand (item.text :: (behind.takeWhile Item.isSeparator).map Item.text) ::
        events flags none (behind.dropWhile Item.isSeparator) := by
  have hcount : operandCount .one (item :: behind) =
      (behind.takeWhile Item.isSeparator).length + 1 := by
    simp [operandCount, Item.isSeparator, Item.isPlain, hlook, Nat.add_comm]
  have htake : behind.take (behind.takeWhile Item.isSeparator).length =
      behind.takeWhile Item.isSeparator :=
    (List.prefix_iff_eq_take.mp (List.takeWhile_prefix _)).symm
  have hdrop : behind.drop (behind.takeWhile Item.isSeparator).length =
      behind.dropWhile Item.isSeparator := by
    calc behind.drop (behind.takeWhile Item.isSeparator).length
      _ = (behind.takeWhile Item.isSeparator ++ behind.dropWhile Item.isSeparator).drop
            (behind.takeWhile Item.isSeparator).length := by
          rw [List.takeWhile_append_dropWhile]
      _ = behind.dropWhile Item.isSeparator := List.drop_left
  rw [events]
  simp only [hlook, Option.map_some, hcount, operandEvent, List.take_succ_cons, List.map_cons,
    htake, hdrop]

/-- The first item is read with what it takes and without regard to what is far behind it.  Only a
last argument of the command itself looks for separators there. -/
theorem exists_step {rest : List (Item α)} (hopen : open? ≠ some .remaining)
    (hfront : ∀ item' ∈ item :: rest, item'.isSeparator = false)
    (hbehind : ∀ item ∈ behind.head?, item.isPlain = false)
    (h : Proper (events flags open? (item :: (rest ++ behind)))) :
    (open? = some .one ∧ item.look = .plain ∧ rest = []) ∨
      ∃ first later found next?, rest = first ++ later ∧ next? ≠ some .remaining ∧
        ∀ other, events flags open? (item :: (rest ++ other)) =
          found ++ events flags next? (later ++ other) := by
  cases hlook : item.look with
  | unknown =>
      rw [events] at h
      simp only [hlook] at h
      exact absurd h not_proper_extra
  | separator =>
      have hseparator := hfront item List.mem_cons_self
      simp [Item.isSeparator, hlook] at hseparator
  | option occurrence =>
      right
      rcases hset : setOption flags occurrence (rest ++ behind) with message | ⟨found, count⟩
      · rw [events] at h
        simp only [hlook, hset] at h
        exact absurd h not_proper_mistake
      · have htakes := takes_of_setOption hset
        generalize hitems : rest ++ behind = items at htakes
        cases htakes with
        | none hall =>
            exact ⟨[], rest, _, open?, rfl, hopen, fun other => events_option hlook (hall _)⟩
        | @one values more next items hplain hall =>
            rcases rest with - | ⟨next', rest⟩
            · -- the value would stand behind, where nothing is plain
              have hnext := hbehind next (by rw [show behind = _ from hitems]; rfl)
              rw [hplain] at hnext
              contradiction
            · obtain ⟨rfl, -⟩ := List.cons.inj hitems
              exact ⟨[next'], rest, _, open?, rfl, hopen,
                fun other => events_option hlook (hall _)⟩
  | plain =>
      rcases open? with - | - | -
      · rw [events_closed (by simp [Item.isOption, hlook])] at h
        exact absurd h not_proper_extra
      · rcases rest with - | ⟨next, rest⟩
        · exact .inl ⟨rfl, rfl, rfl⟩
        · have hnext : next.isSeparator = false := hfront next (by simp)
          refine .inr ⟨[], next :: rest, [.operand [item.text]], none, rfl, by simp, ?_⟩
          intro other
          rw [events_plain hlook]
          simp [hnext]
      · contradiction

/-- What is in front of other items is read first, but for a last argument of the command itself:
the separators behind it are read with it. -/
structure Splits (flags : List (Flag α)) (open? : Option Operands) (front : List (Item α))
    (before : List (Event α)) (later? : Option Operands) (pending : List (Item α)) : Prop where
  later : later? ≠ some .remaining
  pending_cases : pending = [] ∨
    later? = some .one ∧ ∃ item : Item α, item.look = .plain ∧ pending = [item]
  events_eq : ∀ other, events flags open? (front ++ other) =
    before ++ events flags later? (pending ++ other)

/-- Reading stops in front of an item that is not plain. -/
theorem exists_splits {front : List (Item α)} (hopen : open? ≠ some .remaining)
    (hfront : ∀ item ∈ front, item.isSeparator = false)
    (hbehind : ∀ item ∈ behind.head?, item.isPlain = false)
    (h : Proper (events flags open? (front ++ behind))) :
    ∃ before later? pending, Splits flags open? front before later? pending := by
  induction hlength : front.length using Nat.strongRecOn generalizing front open? with
  | ind length ih =>
  rcases front with - | ⟨item, rest⟩
  · exact ⟨[], open?, [], hopen, .inl rfl, fun other => rfl⟩
  · obtain ⟨rfl, hlook, rfl⟩ | ⟨first, later, found, next?, rfl, hnext, hevents⟩ :=
      exists_step hopen hfront hbehind h
    · exact ⟨[], some .one, [item], hopen, .inr ⟨rfl, item, hlook, rfl⟩, fun other => rfl⟩
    · have hshorter : later.length < length := by
        rw [← hlength, List.length_cons, List.length_append]
        omega
      have hlater : ∀ item ∈ later, item.isSeparator = false :=
        fun item hitem => hfront item (by simp [hitem])
      rw [List.cons_append, hevents] at h
      obtain ⟨before, later?, pending, hsplits⟩ := ih later.length hshorter hnext hlater h.right rfl
      refine ⟨found ++ before, later?, pending, hsplits.later, hsplits.pending_cases,
        fun other => ?_⟩
      rw [List.cons_append, hevents, hsplits.events_eq, List.append_assoc]

/-! ### Items behind a separator -/

/-- Where the command takes no argument any more, only an option may stand. -/
theorem isOption_of_closed
    (h : Proper (events flags none (item :: behind))) : item.isOption = true := by
  rw [← Bool.not_eq_false]
  intro hlook
  rw [events_closed hlook] at h
  exact not_proper_extra h

theorem eq_nil_of_closed {items : List (Item α)} (hplain : ∀ item ∈ items, item.look = .plain)
    (h : Proper (events flags none items)) : items = [] := by
  rcases items with - | ⟨item, items⟩
  · rfl
  · have hoption := isOption_of_closed h
    simp [Item.isOption, hplain item List.mem_cons_self] at hoption

theorem separators_eq_nil {items : List (Item α)}
    (h : ∀ item ∈ items.head?, item.isSeparator = false) :
    items.takeWhile Item.isSeparator = [] ∧ items.dropWhile Item.isSeparator = items := by
  rcases items with - | ⟨item, items⟩
  · exact ⟨rfl, rfl⟩
  · simp [h item rfl]

theorem separators_eq_nil_of_plain {items : List (Item α)}
    (hplain : ∀ item ∈ items, item.look = .plain) :
    items.takeWhile Item.isSeparator = [] ∧ items.dropWhile Item.isSeparator = items := by
  refine separators_eq_nil fun item hitem => ?_
  simp [Item.isSeparator, hplain item (List.mem_of_mem_head? hitem)]

/-- Behind a separator that is read by itself stands just one argument. -/
theorem length_behind_separator {separator : Item α} {items : List (Item α)}
    (hseparator : separator.look = .separator) (hopen : open? ≠ some .remaining)
    (hplain : ∀ item ∈ items, item.look = .plain)
    (h : Proper (events flags open? (separator :: items))) :
    items.length = 1 := by
  rcases open? with - | - | -
  · rw [events_closed (by simp [Item.isOption, hseparator])] at h
    exact absurd h not_proper_extra
  · rcases items with - | ⟨item, items⟩
    · rw [events] at h
      have hcount : operandCount .one [separator] = 0 := by
        simp [operandCount, Item.isSeparator, hseparator]
      simp only [hseparator, Option.map_some, hcount] at h
      exact absurd h not_proper_extra
    · have hitem := hplain item List.mem_cons_self
      have hitems : ∀ item ∈ items, item.look = .plain :=
        fun item hitem => hplain item (List.mem_cons_of_mem _ hitem)
      have hcount : operandCount .one (separator :: item :: items) = 2 := by
        simp [operandCount, Item.isSeparator, Item.isPlain, hseparator, hitem,
          (separators_eq_nil_of_plain hitems).1]
      rw [events] at h
      simp only [hseparator, Option.map_some, hcount, List.drop_succ_cons, List.drop_zero] at h
      obtain rfl := eq_nil_of_closed hitems h.tail
      rfl
  · contradiction

/-- How many arguments may stand behind a separator depends on what is in front of it. -/
theorem length_eq_behind_separator {front items items' : List (Item α)} {separator : Item α}
    (hseparator : separator.look = .separator)
    (hfront : ∀ item ∈ front, item.isSeparator = false)
    (hplain : ∀ item ∈ items, item.look = .plain) (hplain' : ∀ item ∈ items', item.look = .plain)
    (h : Proper (events flags (some .one) (front ++ separator :: items)))
    (h' : Proper (events flags (some .one) (front ++ separator :: items'))) :
    items.length = items'.length := by
  have hbehind : ∀ item ∈ (separator :: items).head?, item.isPlain = false := by
    simp [Item.isPlain, hseparator]
  have hone : some Operands.one ≠ some .remaining := by simp
  obtain ⟨before, later?, pending, hsplits⟩ := exists_splits hone hfront hbehind h
  rw [hsplits.events_eq] at h h'
  replace h := h.right
  replace h' := h'.right
  obtain rfl | ⟨rfl, item, hlook, rfl⟩ := hsplits.pending_cases
  · rw [length_behind_separator hseparator hsplits.later hplain h,
      length_behind_separator hseparator hsplits.later hplain' h']
  · -- the argument in front is the only one, so that none may follow
    have hnil {items : List (Item α)} (hplain : ∀ item ∈ items, item.look = .plain)
        (h : Proper (events flags (some .one) (item :: separator :: items))) :
        items = [] := by
      rw [events_plain hlook] at h
      simp only [List.dropWhile_cons, Item.isSeparator, hseparator, if_true] at h
      rw [show items.dropWhile _ = items from (separators_eq_nil_of_plain hplain).2] at h
      exact eq_nil_of_closed hplain h.tail
    rw [hnil hplain h, hnil hplain' h']

/-- An option without value that is put in front of other items is set there. -/
theorem events_insert {front back : List (Item α)} {option : Item α} {flag : Flag α}
    (hfront : ∀ item ∈ front, item.isSeparator = false)
    (hoption : ∀ open? items, events flags open? (option :: items) =
      .set flag [] :: events flags open? items) (hlook : option.isOption)
    (h : Proper (events flags (some .one) (front ++ option :: back))) :
    ∃ before after,
      events flags (some .one) (front ++ option :: back) = before ++ .set flag [] :: after ∧
        events flags (some .one) (front ++ back) = before ++ after := by
  have hbehind : ∀ item ∈ (option :: back).head?, item.isPlain = false := by
    simp [isPlain_of_isOption hlook]
  have hone : some Operands.one ≠ some .remaining := by simp
  obtain ⟨before, later?, pending, hsplits⟩ := exists_splits hone hfront hbehind h
  rw [hsplits.events_eq] at h
  rw [hsplits.events_eq, hsplits.events_eq]
  obtain rfl | ⟨rfl, item, hitem, rfl⟩ := hsplits.pending_cases
  · exact ⟨before, events flags later? back, by rw [List.nil_append, hoption], rfl⟩
  · have hset : events flags (some .one) ([item] ++ option :: back) =
        .operand [item.text] :: .set flag [] :: events flags none back := by
      rw [List.singleton_append, events_plain hitem, ← hoption]
      simp [isSeparator_of_isOption hlook]
    rw [hset] at h ⊢
    have hback : ∀ item ∈ back.head?, item.isSeparator = false := by
      rcases back with - | ⟨next, back⟩
      · nofun
      · rintro _ ⟨⟩
        exact isSeparator_of_isOption (isOption_of_closed h.right.tail.tail)
    obtain ⟨htake, hdrop⟩ := separators_eq_nil hback
    refine ⟨before ++ [.operand [item.text]], events flags none back, by simp, ?_⟩
    rw [List.singleton_append, events_plain hitem, htake, hdrop]
    simp

/-! ### Items of arguments -/

theorem look_ne_separator {text : Text} : look flags text ≠ .ok .separator := by
  have hguess : look.guess flags text ≠ .ok .separator := by
    unfold look.guess
    split
    · nofun
    · split <;> nofun
    · nofun
  unfold look
  repeat' split
  all_goals first | exact hguess | nofun

theorem isSeparator_of_look {text : Text} {look' : Look α} (h : look flags text = .ok look') :
    Item.isSeparator ⟨text, look'⟩ = false := by
  cases look' with
  | separator => exact absurd h look_ne_separator
  | _ => rfl

theorem classify_cons {text : Text} {words : List Text} {items : List (Item α)}
    (htext : text ≠ "--".toList) (h : classify flags (text :: words) = .ok items) :
    ∃ look' more, look flags text = .ok look' ∧ classify flags words = .ok more ∧
      items = ⟨text, look'⟩ :: more := by
  rw [classify, if_neg htext] at h
  cases hlook : look flags text with
  | error names =>
      rw [hlook] at h
      contradiction
  | ok look' =>
      rw [hlook] at h
      obtain ⟨more, hmore, rfl⟩ := exists_of_map_eq_ok h
      exact ⟨look', more, rfl, hmore, rfl⟩

/-- Up to the first separator, arguments are looked at one by one. -/
theorem classify_append {front : List Text} (hfront : "--".toList ∉ front) {back : List Text}
    {items : List (Item α)} (h : classify flags (front ++ back) = .ok items) :
    ∃ more behind, classify flags back = .ok behind ∧ items = more ++ behind ∧
      (∀ item ∈ more, item.isSeparator = false) ∧
      ∀ other, classify flags (front ++ other) = (classify flags other).map (more ++ ·) := by
  induction front generalizing items with
  | nil =>
      refine ⟨[], items, h, rfl, by simp, fun other => ?_⟩
      rw [List.nil_append]
      cases classify flags other <;> rfl
  | cons text front ih =>
      obtain ⟨htext, hfront⟩ := not_or.mp (mt List.mem_cons.mpr hfront)
      obtain ⟨look', further, hlook, hfurther, rfl⟩ := classify_cons (Ne.symm htext) h
      obtain ⟨more, behind, hbehind, rfl, hmore, hother⟩ := ih hfront hfurther
      refine ⟨⟨text, look'⟩ :: more, behind, hbehind, rfl, ?_, fun other => ?_⟩
      · intro item hitem
        obtain rfl | hitem := List.mem_cons.mp hitem
        · exact isSeparator_of_look hlook
        · exact hmore item hitem
      · rw [List.cons_append, classify, if_neg (Ne.symm htext), hlook, hother]
        cases classify flags other <;> rfl

/-! ### Arguments that are accepted -/

theorem Draft.set_extras {draft next : Draft} {flag : Flag Choice} {values : List Text}
    (h : draft.set flag values = .ok next) : next.extras = draft.extras := by
  unfold Draft.set at h
  cases hmeaning : flag.meaning <;> simp only [hmeaning] at h
  case help => contradiction
  case format =>
    rcases hformat : formatSetting flag.label (settingOf values) with notice | format
    · rw [hformat] at h
      contradiction
    · rw [hformat] at h
      rw [← Except.ok.inj h]
  all_goals rw [← Except.ok.inj h]

theorem Draft.step_extras {draft next : Draft} {event : Event Choice}
    (h : draft.step event = .ok next) : draft.extras <+: next.extras := by
  cases event with
  | set flag values => exact (Draft.set_extras h).symm ▸ List.prefix_rfl
  | operand =>
      obtain rfl := Except.ok.inj h
      exact List.prefix_rfl
  | extra text =>
      obtain rfl := Except.ok.inj h
      exact List.prefix_append _ _
  | mistake => contradiction

theorem isProper_of_step {draft next : Draft} {event : Event Choice}
    (h : draft.step event = .ok next) (hextras : next.extras = []) : event.isProper := by
  cases event with
  | extra text =>
      obtain rfl := Except.ok.inj h
      simp at hextras
  | mistake => contradiction
  | _ => rfl

theorem proper_of_foldlM {found : List (Event Choice)} {first last : Draft}
    (h : found.foldlM Draft.step first = .ok last) (hextras : last.extras = []) :
    Proper found := by
  induction found generalizing first with
  | nil => nofun
  | cons event found ih =>
      rw [List.foldlM_cons] at h
      rcases hstep : first.step event with notice | next
      · rw [hstep] at h
        contradiction
      · rw [hstep] at h
        have hover : next.extras <+: last.extras := prefix_of_foldlM Draft.step_extras h
        rw [hextras, List.prefix_nil] at hover
        intro event' hevent'
        obtain rfl | hevent' := List.mem_cons.mp hevent'
        · exact isProper_of_step hstep hover
        · exact ih h event' hevent'

/-- The arguments are accepted without anything left over. -/
theorem exists_of_readTokenize {words : List Text} {arguments : Arguments}
    (h : readTokenize words = .ok (arguments, [])) :
    ∃ items draft, classify tokenizeFlags words = .ok items ∧
      (events tokenizeFlags (some .one) items).foldlM Draft.step {} = .ok draft ∧
      draft.extras = [] ∧
      ∃ input, draft.input = some input ∧ arguments = { draft.arguments with input } := by
  rw [readTokenize] at h
  rcases hitems : classify tokenizeFlags words with message | items
  · rw [hitems] at h
    contradiction
  · rw [hitems] at h
    replace h : ((events tokenizeFlags (some .one) items).foldlM Draft.step {} >>= _) =
      .ok (arguments, []) := h
    rcases hfold : (events tokenizeFlags (some .one) items).foldlM Draft.step {} with
      notice | ⟨- | input, drafted, extras⟩ <;> rw [hfold] at h
    · contradiction
    · contradiction
    · obtain ⟨rfl, rfl⟩ := Prod.mk.inj (Except.ok.inj h)
      exact ⟨items, _, rfl, hfold, rfl, input, rfl, rfl⟩

theorem proper_of_readTokenize {words : List Text} {arguments : Arguments}
    {items : List (Item Choice)} (hitems : classify tokenizeFlags words = .ok items)
    (h : readTokenize words = .ok (arguments, [])) :
    Proper (events tokenizeFlags (some .one) items) := by
  obtain ⟨items', draft, hitems', hfold, hextras, -⟩ := exists_of_readTokenize h
  obtain rfl := Except.ok.inj (hitems.symm.trans hitems')
  exact proper_of_foldlM hfold hextras

/-- Behind `--` no option can be put: it would be an argument too many. -/
theorem separator_notMem_of_insert {front back : List Text} {arguments arguments' : Arguments}
    {word : Text} (h : readTokenize (front ++ back) = .ok (arguments, []))
    (h' : readTokenize (front ++ word :: back) = .ok (arguments', [])) :
    "--".toList ∉ front := by
  intro hmem
  obtain ⟨before, after, rfl, hbefore⟩ := List.eq_append_cons_of_mem hmem
  rw [List.append_assoc, List.cons_append] at h h'
  obtain ⟨items, draft, hitems, -⟩ := exists_of_readTokenize h
  obtain ⟨more, behind, hbehind, rfl, hmore, hother⟩ := classify_append hbefore hitems
  have hseparate (words : List Text) : classify tokenizeFlags (before ++ "--".toList :: words) =
      .ok (more ++ ⟨"--".toList, .separator⟩ :: words.map fun text => ⟨text, .plain⟩) := by
    rw [hother, classify, if_pos rfl]
    rfl
  have hplain (words : List Text) :
      ∀ item ∈ words.map fun text => (⟨text, .plain⟩ : Item Choice), item.look = .plain := by
    intro item hitem
    obtain ⟨text, -, rfl⟩ := List.mem_map.mp hitem
    rfl
  have hlength := length_eq_behind_separator rfl hmore (hplain _) (hplain _)
    (proper_of_readTokenize (hseparate _) h) (proper_of_readTokenize (hseparate _) h')
  simp at hlength

theorem readTokenize_insert_debug {front back : List Text} {arguments arguments' : Arguments}
    (h : readTokenize (front ++ back) = .ok (arguments, []))
    (h' : readTokenize (front ++ "--debug".toList :: back) = .ok (arguments', [])) :
    arguments' = arguments.withDebug := by
  have hfront := separator_notMem_of_insert h h'
  obtain ⟨items, draft, hitems, hfold, -, input, hinput, rfl⟩ := exists_of_readTokenize h
  obtain ⟨items', draft', hitems', hfold', -, input', hinput', rfl⟩ := exists_of_readTokenize h'
  obtain ⟨more, behind, hbehind, rfl, hmore, hother⟩ := classify_append hfront hitems
  have hinsert : items' = more ++ debugItem :: behind := by
    rw [hother, classify_debug, hbehind] at hitems'
    exact (Except.ok.inj hitems').symm
  subst hinsert
  obtain ⟨before, after, hbefore, hafter⟩ := events_insert hmore events_debug rfl
    (proper_of_readTokenize hitems' h')
  rw [hbefore, List.foldlM_append] at hfold'
  rw [hafter, List.foldlM_append] at hfold
  rcases hmiddle : before.foldlM Draft.step {} with notice | middle
  · rw [hmiddle] at hfold
    contradiction
  · rw [hmiddle] at hfold hfold'
    replace hfold : after.foldlM Draft.step middle = .ok draft := hfold
    replace hfold' : after.foldlM Draft.step middle.withDebug = .ok draft' := hfold'
    rw [foldlM_step_withDebug, hfold] at hfold'
    obtain rfl := Except.ok.inj hfold'
    obtain rfl := Option.some.inj (hinput.symm.trans hinput')
    rfl

/-- Wherever debugging is asked for on a command line that is accepted with it and without, it
changes nothing else. -/
theorem read_insert_debug {front back : List Text} {arguments arguments' : Arguments}
    (h : Arguments.read (front ++ back) = .ok arguments)
    (h' : Arguments.read (front ++ "--debug".toList :: back) = .ok arguments') :
    arguments' = arguments.withDebug := by
  obtain ⟨rest', hwords', hrest'⟩ := exists_of_read h'
  obtain ⟨rest, hwords, hrest⟩ := exists_of_read h
  rcases front with - | ⟨name, front⟩
  · exact absurd (List.cons.inj hwords').1 (by decide)
  · obtain ⟨rfl, rfl⟩ := List.cons.inj hwords
    obtain ⟨-, rfl⟩ := List.cons.inj hwords'
    exact readTokenize_insert_debug hrest hrest'

end Command
end LoxLexer
