import LoxLexer.Proofs.Cursor.Round

/-!
# Cursors that share a report

Several sources can be analysed with one report: each fresh cursor gets the report as the one before
it has left it.  A cursor only ever adds to its report and never looks into it, so each of them finds
what it would have found with a report of its own.

* `Cursor.finishAll` — fresh cursors finish one source after the other.
* `Cursor.ownErrors` — what a source adds to the report, whichever that is.
* `Cursor.finish_shared` — one source, with a report and without.
* `Cursor.finishAll_separate` — many sources: tokens, errors, announcements and verdict.
* `Cursor.analyseAll_eq` — the analyses of several sources are what their cursors finish with.
-/

namespace LoxLexer

theorem Report.hadError_iff {report : Report} : report.hadError = true ↔ report.errors ≠ [] := by
  simp [hadError]

namespace Cursor

/-- Fresh cursors finish one source after the other.  Each gets the report that the one before it
has left, and the first gets `report`. -/
def finishAll (report : Report) : List Text → List (Outcome (List Token))
  | [] => []
  | source :: rest =>
    let outcome := (fresh source report).finish
    outcome :: finishAll outcome.2.report rest

/-- The errors of a source: those in the report of a cursor that has one of its own. -/
def ownErrors (source : Text) : List LexicalError := (fresh source).finish.2.report.errors

theorem ownErrors_eq (source : Text) : ownErrors source = (analyse source).report.errors := by
  obtain ⟨d, hfinish, -, hreport⟩ := finish_alone source
  rw [ownErrors, hfinish, hreport]

/-! ### One source -/

/-- With a report that holds errors a fresh cursor finds the tokens that it finds without, and adds
the errors that it finds without. -/
theorem finish_shared (source : Text) (report : Report) :
    ∃ alone shared, (fresh source).finish = (.ok alone.tokens, alone) ∧
      (fresh source report).finish = (.ok shared.tokens, shared) ∧
      shared.tokens = alone.tokens ∧ shared.report = report.addAll (ownErrors source) := by
  obtain ⟨alone, halone, htokens, -⟩ := finish_alone source
  obtain ⟨shared, hshared, htokens', herrors⟩ := finish_fresh source report
  rw [← ownErrors_eq] at herrors
  exact ⟨alone, shared, halone, hshared, htokens'.trans htokens.symm, congrArg Report.mk herrors⟩

/-! ### Many sources -/

theorem length_finishAll (report : Report) (sources : List Text) :
    (finishAll report sources).length = sources.length := by
  induction sources generalizing report with
  | nil => rfl
  | cons source rest ih => rw [finishAll, List.length_cons, List.length_cons, ih]

/-- The cursor of each source starts with the errors of the sources before it. -/
theorem getElem?_finishAll (report : Report) (sources : List Text) (i : Nat) :
    (finishAll report sources)[i]? = sources[i]?.map fun source =>
      (fresh source (report.addAll ((sources.take i).flatMap ownErrors))).finish := by
  induction sources generalizing report i with
  | nil => rfl
  | cons source rest ih =>
      obtain ⟨-, shared, -, hfinish, -, hreport⟩ := finish_shared source report
      cases i with
      | zero => simp [finishAll, Report.addAll]
      | succ i =>
          rw [finishAll, List.getElem?_cons_succ, List.getElem?_cons_succ, ih, hfinish, hreport]
          simp [Report.addAll]

/-- Whatever a report holds at first and however many sources share it, each of them has the tokens
that it has by itself.  After it the report holds what it held at first and then the errors that the
sources so far have by themselves, in order, and announces these; and it says that there was an error
if it held one at first or one of these sources has one. -/
theorem finishAll_separate (report : Report) (sources : List Text) :
    (finishAll report sources).length = sources.length ∧
      ∀ i : Fin sources.length, ∃ alone shared,
        (fresh sources[i]).finish = (.ok alone.tokens, alone) ∧
        (finishAll report sources)[i.val]? = some (.ok shared.tokens, shared) ∧
        shared.tokens = alone.tokens ∧
        shared.report.errors = report.errors ++ (sources.take (i + 1)).flatMap ownErrors ∧
        shared.report.messages =
          (report.errors ++ (sources.take (i + 1)).flatMap ownErrors).map
            LexicalError.announcement ∧
        (shared.report.hadError = true ↔
          report.errors ≠ [] ∨ ∃ source ∈ sources.take (i + 1), ownErrors source ≠ []) := by
  refine ⟨length_finishAll report sources, fun i => ?_⟩
  obtain ⟨alone, shared, halone, hshared, htokens, hreport⟩ :=
    finish_shared sources[i] (report.addAll ((sources.take i).flatMap ownErrors))
  have herrors : shared.report.errors =
      report.errors ++ (sources.take (i + 1)).flatMap ownErrors := by
    rw [hreport, List.take_succ_eq_append_getElem i.isLt, List.flatMap_append,
      List.flatMap_singleton, ← List.append_assoc]
    rfl
  refine ⟨alone, shared, halone, ?_, htokens, herrors, congrArg (List.map _) herrors, ?_⟩
  · rw [getElem?_finishAll, List.getElem?_eq_getElem i.isLt]
    exact congrArg some hshared
  · rw [Report.hadError_iff, herrors, ne_eq, List.append_eq_nil_iff, List.flatMap_eq_nil_iff, not_and_or]
    simp only [not_forall, exists_prop]

/-- The analyses of several sources with one report are what their cursors finish with. -/
theorem analyseAll_eq (report : Report) (sources : List Text) :
    analyseAll report sources =
      (finishAll report sources).map fun outcome => ⟨outcome.2.tokens, outcome.2.report⟩ := by
  induction sources generalizing report with
  | nil => rfl
  | cons source rest ih =>
      obtain ⟨shared, hfinish, htokens, herrors⟩ := finish_fresh source report
      have hreport : shared.report = report.addAll (analyse source).report.errors :=
        congrArg Report.mk herrors
      rw [analyseAll, finishAll, hfinish, List.map_cons, ih, htokens, hreport]

end Cursor
end LoxLexer
