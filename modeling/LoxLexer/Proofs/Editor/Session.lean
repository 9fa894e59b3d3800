import LoxLexer.Proofs.Editor.Designation
import LoxLexer.Proofs.Storage.Access

/-!
# Sessions of an editor

An editor opens documents and changes them, in any order and as often as it likes.  The workspace
remembers the texts of all of them, and yet what is published after an event depends on the event
alone: the text that it brings is stored before it is read back, and nothing of one analysis is left
for the next.

* `Workspace.Stores` — the events of a session are stored one after the other.
* `Event.Publishes` — a notification has the diagnostics of a fresh analysis of the event's text.
* `Workspace.handle_of_store` — one event, whatever happened before it.
* `Memoryless` — what is published over a session does not depend on its history.
* `Workspace.handleAll_memoryless` — every session is so.
-/

namespace LoxLexer
namespace Editor

/-- The events of a session are stored one after the other: documents are opened at addresses that
may name one, and only open documents change. -/
inductive Workspace.Stores : Workspace → List Event → Prop
  | done (workspace : Workspace) : Stores workspace []
  | next {workspace next : Workspace} {event : Event} {events : List Event}
      (hstore : workspace.store event = .ok next) (hrest : Stores next events) :
      Stores workspace (event :: events)

/-- What is published after an event: one notification, for the address of the event, with the
diagnostics of the errors that a fresh cursor records in the text of the event. -/
def Event.Publishes (event : Event) (notifications : List Notification) : Prop :=
  ∃ d diagnostics, (Cursor.fresh event.text).finish = (.ok d.tokens, d) ∧
    d.report.errors.mapM (Diagnostic.ofError event.text) = .ok diagnostics ∧
    notifications = [⟨event.uri, diagnostics⟩]

/-- What is published over a session depends on no event but the one that it is published after. -/
structure Memoryless (events : List Event) (published : List (List Notification)) : Prop where
  /-- every event is answered by the notification that its own text calls for -/
  publishes : List.Forall₂ Event.Publishes events published
  /-- the events at some addresses are answered as before when only they take place -/
  replays : ∀ (chosen : Text → Bool) (workspace : Workspace),
    workspace.Stores (events.filter fun event => chosen event.uri) →
      ∃ replayed,
        workspace.handleAll (events.filter fun event => chosen event.uri) = .ok replayed ∧
          replayed.flatten = published.flatten.filter fun notification => chosen notification.uri
  /-- the same text gives the same diagnostics again -/
  republishes : ∀ answer ∈ events.zip published, ∀ later ∈ events.zip published,
    answer.1.text = later.1.text →
      answer.2.map Notification.diagnostics = later.2.map Notification.diagnostics
  /-- a text without errors clears the diagnostics -/
  clears : ∀ answer ∈ events.zip published, (analyse answer.1.text).report.hadError = false →
    answer.2 = [⟨answer.1.uri, []⟩]

/-! ### One event -/

namespace Workspace

variable {workspace next : Workspace} {event : Event}

theorem store_opened {uri text : Text} (h : Address.check uri = .ok ()) :
    workspace.store (.opened uri text) = .ok (workspace.put uri text) := by
  rw [store, h]

theorem store_changed {uri text : Text} (h : (workspace.text? uri).isSome) :
    workspace.store (.changed uri text) = .ok (workspace.put uri text) := by
  obtain ⟨old, hold⟩ := Option.isSome_iff_exists.mp h
  rw [store, hold]

/-- An event is stored by giving its document its text. -/
theorem eq_put_of_store (h : workspace.store event = .ok next) :
    next = workspace.put event.uri event.text := by
  cases event with
  | opened uri text =>
      simp only [store] at h
      split at h
      · exact (Except.ok.inj h).symm
      · contradiction
  | changed uri text =>
      simp only [store] at h
      split at h
      · exact (Except.ok.inj h).symm
      · contradiction

/-- Whether an event can be stored depends on whether its document is open. -/
theorem store_eq_put_of_isSome {other : Workspace} (h : workspace.store event = .ok next)
    (hopen : (other.text? event.uri).isSome = (workspace.text? event.uri).isSome) :
    other.store event = .ok (other.put event.uri event.text) := by
  cases event with
  | opened uri text =>
      simp only [store] at h
      split at h
      · exact store_opened ‹_›
      · contradiction
  | changed uri text =>
      simp only [store] at h
      split at h
      · rename_i old hold
        exact store_changed (hopen.trans (congrArg Option.isSome hold))
      · contradiction

/-- A new text for one document leaves the others as they are. -/
theorem lookup_put_of_ne (workspace : Workspace) {uri text document : Text}
    (h : document ≠ Address.document uri) :
    (workspace.put uri text).documents.lookup document = workspace.documents.lookup document := by
  rw [put, List.lookup_cons, beq_false_of_ne h]
  exact lookup_filter_ne _ h

/-- What is published after an event that is stored depends on the event alone. -/
theorem handle_of_store (h : workspace.store event = .ok next) :
    workspace.handle event =
      match diagnose event.text with
      | .ok diagnostics => .ok (next, [⟨event.uri, diagnostics⟩])
      | .error fault => .error (.misplaced fault) := by
  have htext : next.text? event.uri = some event.text := by
    rw [eq_put_of_store h, text?_put]
  rw [handle, h]
  show next.validate event.uri >>= _ = _
  rw [validate, htext]
  dsimp only
  cases diagnose event.text <;> rfl

end Workspace

namespace Event

variable {event later : Event} {notifications others : List Notification}

/-- The diagnostics that an event calls for are those of its text. -/
theorem publishes_iff :
    event.Publishes notifications ↔
      ∃ diagnostics, diagnose event.text = .ok diagnostics ∧
        notifications = [⟨event.uri, diagnostics⟩] := by
  obtain ⟨d, hfinish, -, hreport⟩ := Cursor.finish_alone event.text
  constructor
  · rintro ⟨d', diagnostics, hfinish', hdiagnose, hnotifications⟩
    obtain rfl : d' = d := (Prod.mk.inj (hfinish'.symm.trans hfinish)).2
    rw [hreport] at hdiagnose
    exact ⟨diagnostics, hdiagnose, hnotifications⟩
  · rintro ⟨diagnostics, hdiagnose, hnotifications⟩
    refine ⟨d, diagnostics, hfinish, ?_, hnotifications⟩
    rw [hreport]
    exact hdiagnose

/-- Events with the same text call for the same diagnostics. -/
theorem Publishes.map_diagnostics (h : event.Publishes notifications)
    (hlater : later.Publishes others) (htext : event.text = later.text) :
    notifications.map Notification.diagnostics = others.map Notification.diagnostics := by
  obtain ⟨diagnostics, hdiagnose, rfl⟩ := publishes_iff.mp h
  obtain ⟨diagnostics', hdiagnose', rfl⟩ := publishes_iff.mp hlater
  rw [htext, hdiagnose'] at hdiagnose
  obtain rfl := Except.ok.inj hdiagnose
  rfl

/-- A text without errors calls for no diagnostics. -/
theorem Publishes.clear (h : event.Publishes notifications)
    (hclean : (analyse event.text).report.hadError = false) :
    notifications = [⟨event.uri, []⟩] := by
  obtain ⟨diagnostics, hdiagnose, rfl⟩ := publishes_iff.mp h
  have hnone : (analyse event.text).report.errors = [] := by simpa [Report.hadError] using hclean
  rw [diagnose, hnone] at hdiagnose
  obtain rfl := Except.ok.inj hdiagnose
  rfl

end Event

/-! ### Sessions -/

section Sessions

variable {events : List Event} {published : List (List Notification)}

/-- A session publishes what its events call for, one after the other. -/
theorem Workspace.handleAll_of_publishes {workspace : Workspace} (h : workspace.Stores events)
    (hpublishes : List.Forall₂ Event.Publishes events published) :
    workspace.handleAll events = .ok published := by
  induction hpublishes generalizing workspace with
  | nil => rfl
  | cons hevent hrest ih =>
      cases h with
      | next hstore hstores =>
          obtain ⟨diagnostics, hdiagnose, rfl⟩ := Event.publishes_iff.mp hevent
          have hhandle := handle_of_store hstore
          rw [hdiagnose] at hhandle
          rw [handleAll, hhandle]
          show (Workspace.handleAll _ _) >>= _ = _
          rw [ih hstores]
          rfl

/-- A session breaks off if the text of one of its events cannot be shown. -/
theorem Workspace.exists_handleAll_eq_error {workspace : Workspace} {event : Event}
    {fault : PositionError} (h : workspace.Stores events) (hevent : event ∈ events)
    (hfault : diagnose event.text = .error fault) :
    ∃ fault, workspace.handleAll events = .error (.misplaced fault) := by
  induction h with
  | done => contradiction
  | @next workspace next first events hstore _ ih =>
      have hhandle := handle_of_store hstore
      rw [handleAll, hhandle]
      cases hfirst : diagnose first.text with
      | error fault => exact ⟨fault, rfl⟩
      | ok diagnostics =>
          obtain rfl | hmore := List.mem_cons.mp hevent
          · rw [hfirst] at hfault
            contradiction
          · obtain ⟨fault, hrest⟩ := ih hmore
            refine ⟨fault, ?_⟩
            show (Workspace.handleAll _ _) >>= _ = _
            rw [hrest]
            rfl

/-- The events about one document are stored without the others, whatever else is held. -/
theorem Workspace.Stores.filter_document {workspace other : Workspace} {document : Text}
    (h : workspace.Stores events)
    (hopen : (other.documents.lookup document).isSome =
      (workspace.documents.lookup document).isSome) :
    other.Stores (events.filter fun event => Address.document event.uri = document) := by
  induction h generalizing other with
  | done => exact .done other
  | @next workspace next event events hstore _ ih =>
      have hnext := eq_put_of_store hstore
      by_cases hdocument : Address.document event.uri = document
      · rw [List.filter_cons_of_pos (by simpa using hdocument)]
        have hsame : (other.text? event.uri).isSome = (workspace.text? event.uri).isSome := by
          rw [text?, text?, hdocument, hopen]
        have hstored := store_eq_put_of_isSome hstore hsame
        refine .next hstored (ih ?_)
        rw [hnext, ← hdocument]
        show (Workspace.text? _ _).isSome = (Workspace.text? _ _).isSome
        rw [text?_put, text?_put]
      · rw [List.filter_cons_of_neg (by simpa using hdocument)]
        refine ih ?_
        rw [hnext, lookup_put_of_ne _ (Ne.symm hdocument), hopen]

/-- What the events at some addresses call for is what is published for these addresses. -/
theorem exists_publishes_filter (chosen : Text → Bool)
    (h : List.Forall₂ Event.Publishes events published) :
    ∃ replayed,
      List.Forall₂ Event.Publishes (events.filter fun event => chosen event.uri) replayed ∧
        replayed.flatten = published.flatten.filter fun notification => chosen notification.uri := by
  induction h with
  | nil => exact ⟨[], .nil, rfl⟩
  | @cons event notifications events published hevent hrest ih =>
      obtain ⟨replayed, hreplayed, hflatten⟩ := ih
      have hnotifications := Event.publishes_iff.mp hevent
      obtain ⟨diagnostics, -, rfl⟩ := hnotifications
      cases hchosen : chosen event.uri with
      | true =>
          refine ⟨[⟨event.uri, diagnostics⟩] :: replayed, ?_, ?_⟩
          · simpa [hchosen] using And.intro hevent hreplayed
          · simp [hchosen, hflatten]
      | false =>
          refine ⟨replayed, ?_, ?_⟩
          · simpa [hchosen] using hreplayed
          · simp [hchosen, hflatten]

/-- A session that publishes what its events call for has no memory. -/
theorem memoryless_of_publishes (h : List.Forall₂ Event.Publishes events published) :
    Memoryless events published where
  publishes := h
  replays := by
    intro chosen workspace hstores
    obtain ⟨replayed, hreplayed, hflatten⟩ := exists_publishes_filter chosen h
    exact ⟨replayed, Workspace.handleAll_of_publishes hstores hreplayed, hflatten⟩
  republishes := by
    intro answer hanswer later hlater htext
    have hall := List.forall₂_iff_zip.mp h
    exact (hall.2 hanswer).map_diagnostics (hall.2 hlater) htext
  clears := by
    intro answer hanswer hclean
    exact ((List.forall₂_iff_zip.mp h).2 hanswer).clear hclean

/-- Whatever an editor does with whatever documents, in any order: if its events are stored, one
notification is published after each of them, and it depends on no other event; and the events about
one document are stored alone as well.  A session breaks off only at a text with more characters
than there are coordinates. -/
theorem Workspace.handleAll_memoryless {workspace : Workspace} (h : workspace.Stores events) :
    (∃ published, workspace.handleAll events = .ok published ∧ Memoryless events published ∧
        ∀ document,
          workspace.Stores (events.filter fun event => Address.document event.uri = document)) ∨
      ∃ event ∈ events, greatestCoordinate < event.text.length ∧
        ∃ fault, workspace.handleAll events = .error (.misplaced fault) := by
  by_cases hshown : ∀ event ∈ events, ∃ notifications, event.Publishes notifications
  · choose! answer hanswer using hshown
    have hpublishes : List.Forall₂ Event.Publishes events (events.map answer) :=
      List.forall₂_map_right_iff.mpr (List.forall₂_same.mpr hanswer)
    exact .inl ⟨_, handleAll_of_publishes h hpublishes, memoryless_of_publishes hpublishes,
      fun document => h.filter_document rfl⟩
  · simp only [not_forall] at hshown
    obtain ⟨event, hevent, hnone⟩ := hshown
    obtain ⟨diagnostics, hdiagnose, -⟩ | ⟨hlength, fault, hdiagnose⟩ := diagnose_cases event.text
    · exact absurd ⟨_, Event.publishes_iff.mpr ⟨diagnostics, hdiagnose, rfl⟩⟩ hnone
    · exact .inr ⟨event, hevent, hlength, exists_handleAll_eq_error h hevent hdiagnose⟩

end Sessions

/-- Two documents that change by turns, the first of them back to what it was opened with. -/
def twoDocuments : List Event :=
  [.opened "file:///a.lox".toList "@".toList, .opened "untitled:1".toList "\"".toList,
    .changed "file:///a.lox".toList "var".toList, .changed "untitled:1".toList "1".toList,
    .changed "file:///a.lox".toList "@".toList]

/-- Each of the two could as well be the only one, and the first is shown at the end as it was at
the beginning. -/
theorem handleAll_memoryless_twoDocuments :
    ({} : Workspace).Stores twoDocuments ∧
      ∃ first second third fourth last,
        ({} : Workspace).handleAll twoDocuments = .ok [first, second, third, fourth, last] ∧
          first.map Notification.diagnostics = last.map Notification.diagnostics ∧
          third = [⟨"file:///a.lox".toList, []⟩] ∧ fourth = [⟨"untitled:1".toList, []⟩] ∧
          ∃ replayed,
            ({} : Workspace).handleAll
                (twoDocuments.filter fun event => event.uri = "untitled:1".toList) = .ok replayed ∧
              replayed.flatten = [first, second, third, fourth, last].flatten.filter
                fun notification => notification.uri = "untitled:1".toList := by
  have hstores : ({} : Workspace).Stores twoDocuments := by
    refine .next (Workspace.store_opened rfl) (.next (Workspace.store_opened rfl) ?_)
    refine .next (Workspace.store_changed (by decide +kernel)) ?_
    refine .next (Workspace.store_changed (by decide +kernel)) ?_
    exact .next (Workspace.store_changed (by decide +kernel)) (.done _)
  have hchosen : ({} : Workspace).Stores
      (twoDocuments.filter fun event => event.uri = "untitled:1".toList) := by
    refine .next (Workspace.store_opened rfl) ?_
    exact .next (Workspace.store_changed (by decide +kernel)) (.done _)
  have hclean : (analyse "var".toList).report.hadError = false ∧
      (analyse "1".toList).report.hadError = false := by decide +kernel
  have hshort : ∀ event ∈ twoDocuments, event.text.length ≤ greatestCoordinate := by decide
  refine ⟨hstores, ?_⟩
  obtain ⟨published, hhandle, hmemoryless, -⟩ | ⟨event, hevent, hlength, -⟩ :=
    Workspace.handleAll_memoryless hstores
  · match published, hmemoryless.publishes.length_eq with
    | [first, second, third, fourth, last], _ =>
        refine ⟨first, second, third, fourth, last, hhandle, ?_, ?_, ?_, ?_⟩
        · exact hmemoryless.republishes (_, first) (.head _)
            (_, last) (.tail _ (.tail _ (.tail _ (.tail _ (.head _))))) rfl
        · exact hmemoryless.clears (_, third) (.tail _ (.tail _ (.head _))) hclean.1
        · exact hmemoryless.clears (_, fourth) (.tail _ (.tail _ (.tail _ (.head _)))) hclean.2
        · exact hmemoryless.replays (· = "untitled:1".toList) {} hchosen
  · exact absurd hlength (hshort event hevent).not_gt

end Editor
end LoxLexer
