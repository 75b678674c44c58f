import Regression.Proofs.Oracle.Soundness
import Regression.Proofs.Run.Pieces

/-!
# Failures come before partial results

A run that ends well has the result of its last iteration, unless it was stopped from outside or
could not refine. An iteration in which something went wrong never has a result that its partitions
decided.

* `failures_dominate`: the result of a run and those of its iterations.
-/

namespace Regression

open History

/-- The result of a run follows from the reason to stop and from its iterations, the result of an
iteration from its piece of the history, and one that says something about the versions rests on a
complete last iteration. -/
structure FailuresDominate (h : History) (outcome : RunOutcome) : Prop where
  timedOut : outcome.stopReason = .timedOut → outcome.run.result = some .timeout
  refinementFailed : ∀ error, outcome.stopReason = .refinementFailed error →
    outcome.run.result = some .error
  baseToolMissing : outcome.stopReason = .baseToolMissing →
    outcome.run.result = some .baseToolMissing
  last : outcome.stopReason ≠ .timedOut →
    (∀ error, outcome.stopReason ≠ .refinementFailed error) →
    outcome.stopReason ≠ .baseToolMissing →
    ∃ record, outcome.iterations.getLast? = some record ∧ record.result.isSome ∧
      outcome.run.result = record.result
  iterations : List.Forall₂ (fun piece record =>
      (piece.failed ∨ piece.aborted → record.result = some .error) ∧
      (piece.expired → piece.failed = false → record.result = some .timeout))
    h.iterations outcome.iterations
  complete : ∀ c ∈ [.eq, .neq, .maybeEq, .maybeNeq, .unknown, .depthLimited],
    outcome.run.result = some c →
    ∃ piece, h.iterations.getLast? = some piece ∧ piece.failed = false ∧ piece.aborted = false ∧
      piece.expired = false ∧ (∀ unit, .expanded unit .expired ∉ piece) ∧ .pulled (.done (.ok none)) ∈ piece ∧
      ∀ p ∈ piece.delivered, ∃ record, .wrote (.partition record) (.ok ()) ∈ piece ∧
        record.partition = p.index ∧ record.result.isSome

namespace Run

variable {ctx : RunContext}

theorem resultOf_eq_classifyRun {reason : StopReason} {records : List IterationRecord}
    (ht : reason ≠ .timedOut) (hf : ∀ error, reason ≠ .refinementFailed error) :
    resultOf reason records = classifyRun (records.filterMap (·.result)) := by
  cases reason with
  | timedOut => exact absurd rfl ht
  | refinementFailed error => exact absurd rfl (hf error)
  | _ => rfl

theorem classifyRun_filterMap {records : List IterationRecord} {record : IterationRecord}
    (hlast : records.getLast? = some record) (hresult : record.result.isSome) :
    some (classifyRun (records.filterMap (·.result))) = record.result := by
  obtain ⟨init, rfl⟩ := List.getLast?_eq_some_iff.mp hlast
  obtain ⟨result, hr⟩ := Option.isSome_iff_exists.mp hresult
  simp [classifyRun, hr]

theorem Analyzed.result_of_failed {iteration : UInt32} {piece : History}
    {judged : List (Partition × Verdict)} {record : IterationRecord}
    (h : Analyzed ctx iteration piece judged record) :
    (piece.failed ∨ piece.aborted → record.result = some .error) ∧
      (piece.expired → piece.failed = false → record.result = some .timeout) := by
  rw [h.result]
  refine ⟨fun hf => ?_, fun ht hf => ?_⟩
  · rw [classifyIteration, (Bool.or_eq_true _ _).mpr hf]
    rfl
  · have hb : piece.aborted = false := by
      by_contra hb
      rw [h.inTime (by simpa using hb)] at ht
      cases ht
    rw [classifyIteration, hf, hb, ht]
    rfl

/-- Lists that are related have related last elements. -/
theorem exists_getLast?_of_forall₂ {α β : Type} {R : α → β → Prop} {l : List α} {l' : List β}
    {b : β} (h : List.Forall₂ R l l') (hb : l'.getLast? = some b) :
    ∃ a, l.getLast? = some a ∧ R a b := by
  rw [← List.head?_reverse] at hb
  simp only [← List.head?_reverse]
  have hreverse : List.Forall₂ R l.reverse l'.reverse := List.forall₂_reverse_iff.mpr h
  generalize l.reverse = r, l'.reverse = r' at hreverse hb
  cases hreverse with
  | nil => cases hb
  | cons hr => cases hb; exact ⟨_, rfl, hr⟩

/-- If nothing went wrong, every partition that was delivered was classified. -/
theorem Analyzed.classified {iteration : UInt32} {piece : History}
    {judged : List (Partition × Verdict)} {record : IterationRecord}
    (h : Analyzed ctx iteration piece judged record) (hf : piece.failed = false)
    (hb : piece.aborted = false) (he : piece.expired = false) {p : Partition}
    (hp : p ∈ piece.delivered) :
    ∃ v, v.result.1 ∈ judged.map (·.2.result.1) ∧ Judged ctx iteration piece p v := by
  rw [← (h.complete hf hb he).1] at hp
  obtain ⟨⟨p, v⟩, hmem, rfl⟩ := List.mem_map.mp hp
  exact ⟨v, List.mem_map.mpr ⟨_, hmem, rfl⟩, h.each _ hmem⟩

/-- A result that is neither a failure nor an expired watchdog needs that nothing went wrong. -/
theorem Analyzed.of_result {iteration : UInt32} {piece : History}
    {judged : List (Partition × Verdict)} {record : IterationRecord} {c : Classification}
    (h : Analyzed ctx iteration piece judged record) (hc : record.result = some c)
    (hne : c ≠ .error) (hnt : c ≠ .timeout) :
    piece.failed = false ∧ piece.aborted = false ∧ piece.expired = false ∧
      foldPartitions (judged.map (·.2.result.1)) = c := by
  rw [h.result, classifyIteration] at hc
  cases hf : piece.failed || piece.aborted with
  | true => exact absurd (by simpa [hf] using hc) hne.symm
  | false =>
    cases he : piece.expired with
    | true => exact absurd (by simpa [hf, he] using hc) hnt.symm
    | false =>
      obtain ⟨hfailed, haborted⟩ := Bool.or_eq_false_iff.mp hf
      exact ⟨hfailed, haborted, rfl, by simpa [hf, he] using hc⟩

theorem Runs.result_eq {request : RunRequest} {h : History} {outcome : RunOutcome}
    (runs : Runs ctx request h (.ok outcome)) :
    (outcome.stopReason = .timedOut → outcome.run.result = some .timeout) ∧
      (∀ error, outcome.stopReason = .refinementFailed error →
        outcome.run.result = some .error) ∧
      (outcome.stopReason = .baseToolMissing → outcome.run.result = some .baseToolMissing) := by
  rcases runs.of_ok with ⟨-, hreason, -, hresult⟩ | ⟨before, es, behind, progress, -, -, -,
    iterates, -, hresult⟩
  · rw [hreason, hresult]
    simp
  · rw [hresult]
    refine ⟨fun hr => by rw [hr]; rfl, fun error hr => by rw [hr]; rfl, fun hr => ?_⟩
    exact absurd hr iterates.ne_baseToolMissing

/-- A run that was not stopped from outside has the result of its last iteration. -/
theorem Runs.last {request : RunRequest} {h : History} {outcome : RunOutcome}
    (runs : Runs ctx request h (.ok outcome)) (ht : outcome.stopReason ≠ .timedOut)
    (hf : ∀ error, outcome.stopReason ≠ .refinementFailed error)
    (hb : outcome.stopReason ≠ .baseToolMissing) :
    ∃ piece iteration judged record, h.iterations.getLast? = some piece ∧
      outcome.iterations.getLast? = some record ∧ Analyzed ctx iteration piece judged record ∧
      outcome.run.result = record.result ∧ ∀ unit, .expanded unit .expired ∉ piece := by
  have hpieces := runs.pieces
  rcases runs.of_ok with ⟨-, hreason, -, -⟩ | ⟨before, es, behind, progress, heq, hbefore, hbehind,
    iterates, hiterations, hresult⟩
  · exact absurd hreason hb
  obtain ⟨record, hlast⟩ : ∃ record, outcome.iterations.getLast? = some record := by
    rw [hiterations]
    exact ⟨_, List.getLast?_eq_some_getLast iterates.iterations_ne_nil⟩
  obtain ⟨piece, hpiece, iteration, judged, hana⟩ := exists_getLast?_of_forall₂ hpieces hlast
  refine ⟨piece, iteration, judged, record, hpiece, hlast, hana, ?_, ?_⟩
  · have hclassify := classifyRun_filterMap hlast (by rw [hana.result]; rfl)
    rw [hresult, ← hclassify, hiterations, resultOf_eq_classifyRun ht hf]
  · intro unit hmem
    have hin : .expanded unit .expired ∈ h :=
      (cut_subset h).2 piece (List.mem_of_getLast? hpiece) hmem
    rw [heq, List.mem_append, List.mem_append] at hin
    rcases hin with hin | hin | hin
    · cases hbefore _ hin
    · exact ht (iterates.timedOut_of_expanded hin)
    · cases hbehind _ hin

end Run

/-- Failures come before partial results. -/
theorem failures_dominate {σ : Type} {settings : Settings} {env : Environment (StateM σ)}
    {request : RunRequest} {s : σ} {outcome : RunOutcome}
    (h : ((settings.analyze env request).run s).1 = .ok outcome) :
    FailuresDominate (settings.history env request s) outcome := by
  obtain ⟨⟨watchdog, runs⟩, -⟩ := Settings.runs_history h
  obtain ⟨htimedOut, hfailed, hmissing⟩ := runs.result_eq
  refine ⟨htimedOut, hfailed, hmissing, ?_, ?_, ?_⟩
  · intro ht hf hb
    obtain ⟨piece, iteration, judged, record, -, hlast, hana, hresult, -⟩ := runs.last ht hf hb
    exact ⟨record, hlast, by rw [hana.result]; rfl, hresult⟩
  · refine runs.pieces.imp ?_
    rintro piece record ⟨iteration, judged, hana⟩
    exact hana.result_of_failed
  · intro c hc hresult
    have hne : c ≠ .error ∧ c ≠ .timeout ∧ c ≠ .baseToolMissing := by
      refine ⟨?_, ?_, ?_⟩ <;> rintro rfl <;> simp at hc
    obtain ⟨piece, iteration, judged, record, hpiece, -, hana, hc', hexpanded⟩ := runs.last
      (fun hr => hne.2.1 (Option.some.inj (hresult.symm.trans (htimedOut hr))))
      (fun error hr => hne.1 (Option.some.inj (hresult.symm.trans (hfailed error hr))))
      (fun hr => hne.2.2 (Option.some.inj (hresult.symm.trans (hmissing hr))))
    obtain ⟨hf, hb, he, -⟩ := hana.of_result (hc'.symm.trans hresult) hne.1 hne.2.1
    refine ⟨piece, hpiece, hf, hb, he, hexpanded, (hana.complete hf hb he).2, ?_⟩
    intro p hp
    obtain ⟨v, -, hjudged⟩ := hana.classified hf hb he hp
    exact ⟨_, hjudged.stored, hjudged.index_eq, rfl⟩

/-! ## A small environment -/

/-- A run that is known to have an outcome with some property. -/
theorem exists_ok_of_toOption {ε α β : Type} {x : Except ε α} {f : α → β} {b : β}
    (h : x.toOption.map f = some b) : ∃ a, x = .ok a ∧ f a = b := by
  cases x with
  | error e => cases h
  | ok a => exact ⟨a, rfl, Option.some.inj h⟩

/-- An environment with one partition, where the answers depend on the kind of the query. -/
def Environment.delivering (p : Partition) (status : QueryKind → Status) :
    Environment (StateM Bool) where
  now := pure .zero
  today := pure default
  inputExists _ := pure true
  prepare _ _ := pure (.done (.ok ()))
  start _ _ := do
    set false
    return .done (.ok ())
  next _ := do
    let delivered ← get
    set true
    return .done (.ok (if delivered then none else some p))
  summary := pure []
  expand _ _ := pure (.done (.ok ()))
  isExpired _ := pure false
  openBatch := pure ()
  closeBatch _ := pure (.done (.ok ()))
  desk _ := .answering status
  write _ := pure (.ok ())
  resetResults _ := pure (.ok ())
  appendResults _ _ := pure (.ok ())

/-- Both versions return what an abstracted function computes. -/
def unchanged : Partition :=
  { index := 1
    pc := .mk .gt (.var "x" .int) (.int 0)
    v1 := .symbolic (.uif "f" .int [.var "x" .int])
    v2 := .symbolic (.uif "f" .int [.var "x" .int]) }

/-- The results can agree, but they cannot differ. -/
def agreeing : QueryKind → Status
  | .pc | .eq => .sat
  | .neq => .unsat

/-- The watchdog expires before the partition is checked. -/
theorem failures_dominate_unchanged :
    ∃ outcome, outcome.stopReason = .timedOut ∧
      FailuresDominate ((Settings.default 1).history
        { Environment.delivering unchanged agreeing with isExpired := fun _ => pure true }
        { benchmark := "f" } false) outcome := by
  have hrun : (((Settings.default 1).analyze
      { Environment.delivering unchanged agreeing with isExpired := fun _ => pure true }
      { benchmark := "f" }).run false).1.toOption.map (·.stopReason) = some .timedOut := by
    decide +kernel
  cases hr : (((Settings.default 1).analyze
      { Environment.delivering unchanged agreeing with isExpired := fun _ => pure true }
      { benchmark := "f" }).run false).1 with
  | error e =>
    rw [hr] at hrun
    cases hrun
  | ok outcome =>
    rw [hr] at hrun
    exact ⟨outcome, Option.some.inj hrun, failures_dominate hr⟩

end Regression
