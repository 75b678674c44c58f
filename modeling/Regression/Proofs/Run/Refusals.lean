import Regression.Proofs.Oracle.Protocol
import Regression.Proofs.Run.Results
import Regression.Proofs.Text

/-!
# Refused writes

The store may refuse any write. Then the run ends with the failure of the store, and it does so for
no other reason. There is one exception: the refusal of a row for a partition that is not classified
yet counts as a failure of the exploration. The iteration gets the text of that failure, and the run
goes on to its end.

* `Run.Runs.surfaces`: how a run ends when the store refuses something.
* `Run.Runs.of_refused`: what becomes of refused rows of partitions that are not classified.
* `refusals_end`: the same for all runs.
-/

namespace Regression

open History

/-! ## Refusals -/

/-- The row of a partition that is not classified yet. -/
def StoreWrite.isIndexRow : StoreWrite → Bool
  | .partition row => !row.isClassified
  | _ => false

/-- The store refused something else than such a row. -/
def Event.isRefusal : Event → Bool
  | .wrote w (.error _) => !w.isIndexRow
  | _ => false

/-- The text for an iteration that lacks a row of a partition. -/
def unstoredText (e : StorageError) : String :=
  "symbolic execution failed: " ++ (Failure.storage e).message

theorem Event.not_isRefusal_of_isFromDesk {e : Event} (h : e.isFromDesk) : e.isRefusal = false := by
  cases e <;> first | rfl | cases h

def History.Unrefused (h : History) : Prop := ∀ e ∈ h, e.isRefusal = false

theorem History.unrefused_nil : History.Unrefused [] := by
  intro e he
  cases he

theorem History.Unrefused.append {h h' : History} (hu : h.Unrefused) (hu' : h'.Unrefused) :
    (h ++ h').Unrefused :=
  List.forall_mem_append.mpr ⟨hu, hu'⟩

theorem History.Unrefused.cons {e : Event} {h : History} (hu : h.Unrefused)
    (he : e.isRefusal = false) : History.Unrefused (e :: h) :=
  List.forall_mem_cons.mpr ⟨he, hu⟩

/-- Work ended with the first refusal, or there was none and it did not fail for the store. -/
inductive Surfaces {α : Type} : History → Except Failure α → Prop
  | unrefused {h : History} {r : Except Failure α} (accepted : h.Unrefused)
    (result : ∀ e, r ≠ .error (.storage e)) : Surfaces h r
  | refused {before : History} {w : StoreWrite} {e : StorageError} (accepted : before.Unrefused)
    (other : w.isIndexRow = false) :
    Surfaces (before ++ [.wrote w (.error e)]) (.error (.storage e))

namespace Surfaces

variable {α β : Type} {before h : History} {r : Except Failure α}

theorem prepend (hs : Surfaces h r) (hu : before.Unrefused) : Surfaces (before ++ h) r := by
  cases hs with
  | unrefused accepted result => exact .unrefused (hu.append accepted) result
  | refused accepted other =>
    rw [← List.append_assoc]
    exact .refused (hu.append accepted) other

theorem cons {e : Event} (hs : Surfaces h r) (he : e.isRefusal = false) :
    Surfaces (e :: h) r := by
  have hu : History.Unrefused [e] := unrefused_nil.cons he
  exact hs.prepend hu

theorem first {w : StoreWrite} {e : StorageError} (other : w.isIndexRow = false) :
    Surfaces [.wrote w (.error e)] (.error (.storage e) : Except Failure α) :=
  .refused unrefused_nil other

theorem ok (hu : h.Unrefused) (a : α) : Surfaces h (.ok a) := by
  refine .unrefused hu ?_
  rintro e ⟨⟩

theorem of_ok {a : α} (hs : Surfaces h (.ok a)) : h.Unrefused := by
  cases hs with
  | unrefused accepted => exact accepted

/-- A failure is passed on as it is. -/
theorem of_error {e : Failure} (hs : Surfaces h (.error e : Except Failure α)) :
    Surfaces h (.error e : Except Failure β) := by
  generalize hr : Except.error e = r at hs
  cases hs with
  | unrefused accepted result =>
    refine .unrefused accepted fun e' he' => ?_
    cases he'
    exact result e' hr.symm
  | refused accepted other =>
    cases hr
    exact .refused accepted other

/-- A refusal is the last event, and the result. -/
theorem of_eq {w : StoreWrite} {e : StorageError} {after : History} (hs : Surfaces h r)
    (heq : h = before ++ .wrote w (.error e) :: after) (other : w.isIndexRow = false) :
    after = [] ∧ r = .error (.storage e) := by
  have hrefusal : (Event.wrote w (.error e)).isRefusal = true := by simp [Event.isRefusal, other]
  cases hs with
  | unrefused accepted =>
    rw [accepted _ (heq ▸ List.mem_append_right _ List.mem_cons_self)] at hrefusal
    cases hrefusal
  | refused accepted =>
    obtain ⟨hafter, -, hlast⟩ := eq_last (P := fun e => e.isRefusal = true) heq
      (fun e he => by simp [accepted e he]) hrefusal
    cases hlast
    exact ⟨hafter, rfl⟩

/-- Work that fails for the store ends with a refusal. -/
theorem exists_refused {e : StorageError} (hs : Surfaces h r) (hr : r = .error (.storage e)) :
    ∃ before w, h = before ++ [.wrote w (.error e)] ∧ w.isIndexRow = false := by
  cases hs with
  | unrefused _ result => exact absurd hr (result e)
  | refused _ other =>
    cases hr
    exact ⟨_, _, rfl, other⟩

end Surfaces

namespace Run

variable {ctx : RunContext} {iteration : UInt32} {es : History}

/-! ## Exploring -/

/-- Nothing but rows of partitions that are not classified is written while exploring, and to refuse
one of them ends the exploration. -/
theorem Pulls.of_refused {last : Option UInt32} {r : List Partition × Ending} {w : StoreWrite}
    {e : StorageError} (h : Pulls ctx iteration last es r) (hw : .wrote w (.error e) ∈ es) :
    (∃ index, w = indexRow ctx iteration index) ∧ r.2 = .failed (.storage e) := by
  induction h with
  | expired | failed | drained | outOfOrder => simp at hw
  | @unstored _ p e' =>
    obtain ⟨rfl, rfl⟩ : w = indexRow ctx iteration p.index ∧ e = e' := by simpa using hw
    exact ⟨⟨p.index, rfl⟩, rfl⟩
  | next _ _ ih => exact ih (by simpa using hw)

theorem Explores.of_refused {explored : Exploration} {w : StoreWrite} {e : StorageError}
    (h : Explores ctx iteration es explored) (hw : .wrote w (.error e) ∈ es) :
    (∃ index, w = indexRow ctx iteration index) ∧ explored.error = some (unstoredText e) := by
  cases h with
  | expired | failed => simp at hw
  | delivered delivers =>
    cases delivers with
    | expired | failed => simp at hw
    | pulled pulls =>
      obtain ⟨hrow, hending⟩ := pulls.of_refused (by simpa using hw)
      refine ⟨hrow, ?_⟩
      cases hending
      rfl

theorem Explores.unrefused {explored : Exploration} (h : Explores ctx iteration es explored) :
    es.Unrefused := by
  intro e he
  cases e with
  | wrote w result =>
    cases result with
    | ok => rfl
    | error e =>
      obtain ⟨⟨index, rfl⟩, -⟩ := h.of_refused he
      rfl
  | _ => rfl

/-! ## Surfacing -/

theorem Concludes.surfaces {items : List (Partition × Verdict)} {found : Classified}
    {r : Except Failure Classified} (h : Concludes ctx iteration items found es r) :
    Surfaces es r := by
  induction h with
  | done => exact .ok unrefused_nil _
  | failed => exact .first rfl
  | next _ ih => exact ih.cons rfl

theorem Classifies.surfaces {pieces : List (List Partition)} {found : Classified}
    {r : Except Failure Classified} (h : Classifies ctx iteration pieces found es r) :
    Surfaces es r := by
  have hdesk {batch : List Partition} {es : History} {verdicts : List Verdict}
      (checks : Oracle.ChecksAll ctx.settings.solver.timeoutMs iteration batch es verdicts) :
      es.Unrefused := fun e he => Event.not_isRefusal_of_isFromDesk (checks.isFromDesk e he)
  have hclosed (result : Raced (Except String Unit)) : History.Unrefused [.closed result] :=
    unrefused_nil.cons rfl
  induction h with
  | done => exact .ok unrefused_nil _
  | expired => exact .ok (unrefused_nil.cons rfl) _
  | abandoned checks | aborted checks =>
    exact .ok (((hdesk checks).append (hclosed _)).cons rfl) _
  | failed checks concludes =>
    exact ((concludes.surfaces.cons rfl).prepend (hdesk checks)).cons rfl
  | next checks concludes _ ih =>
    exact (((ih.prepend concludes.surfaces.of_ok).cons rfl).prepend (hdesk checks)).cons rfl

theorem Judges.surfaces {explored : Exploration} {r : Except Failure Classified}
    (h : Judges ctx iteration explored es r) : Surfaces es r := by
  cases h with
  | expired => exact .ok unrefused_nil _
  | classified _ classifies => exact classifies.surfaces

theorem Analyzes.surfaces {r : Except Failure IterationReport}
    (h : Analyzes ctx iteration es r) : Surfaces es r := by
  cases h with
  | unstarted => exact .first rfl
  | failed explores judges =>
    exact (judges.surfaces.of_error.prepend explores.unrefused).cons rfl
  | unstored explores judges =>
    exact (((Surfaces.first rfl).prepend judges.surfaces.of_ok).prepend explores.unrefused).cons rfl
  | unlisted explores judges =>
    refine .unrefused ((explores.unrefused.append (judges.surfaces.of_ok.append ?_)).cons rfl) ?_
    · exact (unrefused_nil.cons rfl).cons rfl
    · simp [Failure.ofFile]
  | done explores judges =>
    refine .ok ((explores.unrefused.append (judges.surfaces.of_ok.append ?_)).cons rfl) _
    exact (unrefused_nil.cons rfl).cons rfl

theorem Refines.unrefused {refined : List String} {inconclusive : NameSet}
    {r : Except StopReason String} (h : Refines ctx refined inconclusive es r) : es.Unrefused := by
  cases h <;> simp [Unrefused, Event.isRefusal]

theorem Iterates.surfaces {remaining : Nat} {progress : Progress}
    {r : Except Failure (Progress × StopReason)} (h : Iterates ctx remaining progress es r) :
    Surfaces es r := by
  induction h with
  | exhausted => exact .unrefused unrefused_nil (by simp)
  | failed analyzes => exact analyzes.surfaces.of_error
  | timedOut analyzes | stopped analyzes => exact .ok analyzes.surfaces.of_ok _
  | unrefined analyzes _ _ refines =>
    exact .ok (analyzes.surfaces.of_ok.append refines.unrefused) _
  | next analyzes _ _ refines _ ih =>
    exact (ih.prepend refines.unrefused).prepend analyzes.surfaces.of_ok

theorem Opens.surfaces {r : Except Failure RunRecord} (h : Opens ctx es r) : Surfaces es r := by
  cases h with
  | undeleted => exact .first rfl
  | unreset => exact .unrefused ((unrefused_nil.cons rfl).cons rfl) (by simp [Failure.ofFile])
  | unstored => exact ((Surfaces.first rfl).cons rfl).cons rfl
  | opened => exact .ok (((unrefused_nil.cons rfl).cons rfl).cons rfl) _

theorem Looks.unrefused {request : RunRequest} {missing? : Option String}
    (h : Looks request es missing?) : es.Unrefused := by
  cases h <;> simp [Unrefused, Event.isRefusal]

theorem PutsAll.surfaces {rows : List StoreWrite} {r : Except Failure Unit}
    (h : PutsAll rows es r) (hrows : ∀ w ∈ rows, w.isIndexRow = false) : Surfaces es r := by
  induction h with
  | done => exact .ok unrefused_nil _
  | failed => exact .first (hrows _ List.mem_cons_self)
  | next _ ih =>
    obtain ⟨-, hrest⟩ := List.forall_mem_cons.mp hrows
    exact (ih hrest).cons rfl

theorem Finishes.surfaces {run : RunRecord} {progress : Progress} {reason : StopReason}
    {r : Except Failure RunOutcome} (h : Finishes ctx run progress reason es r) :
    Surfaces es r := by
  have htimes (times : List TimeRecord) : ∀ w ∈ times.map StoreWrite.time, w.isIndexRow = false :=
    List.forall_mem_map.mpr fun _ _ => rfl
  cases h with
  | unstored => exact .first rfl
  | failed _ puts => exact (puts.surfaces (htimes _)).of_error.cons rfl
  | done _ puts => exact .ok ((puts.surfaces (htimes _)).of_ok.cons rfl) _

/-- A run ends with the first refusal. -/
theorem Runs.surfaces {request : RunRequest} {r : Except Failure RunOutcome}
    (runs : Runs ctx request es r) : Surfaces es r := by
  cases runs with
  | unopened opens => exact opens.surfaces.of_error
  | missing opens looks finishes =>
    exact (finishes.surfaces.prepend looks.unrefused).prepend opens.surfaces.of_ok
  | failed opens looks iterates =>
    exact (iterates.surfaces.of_error.prepend looks.unrefused).prepend opens.surfaces.of_ok
  | iterated opens looks iterates finishes =>
    exact ((finishes.surfaces.prepend iterates.surfaces.of_ok).prepend looks.unrefused).prepend
      opens.surfaces.of_ok

/-! ## The exception -/

/-- The record of an iteration that lacks a row of a partition. -/
structure Lacks (record : IterationRecord) (iteration : UInt32) (e : StorageError) : Prop where
  iteration : record.iteration = iteration
  result : record.result = some .error
  errors : ∃ rest, record.errors = some (unstoredText e ++ rest)

/-- Why preparing or exploring failed is the first error text of an iteration. -/
theorem errors_reportOf {explored : Exploration} {text : String} (h : explored.error = some text)
    (found : Classified) (elapsed : Duration) :
    let report := reportOf ctx iteration explored found elapsed
    report.result = .error ∧ report.record.result = some .error ∧
      ∃ rest, report.record.errors = some (text ++ rest) := by
  have hresult : resultOfIteration explored found = .error := by
    simp [resultOfIteration, classifyIteration, h]
  obtain ⟨texts, htexts⟩ : ∃ texts,
      errorTexts ctx explored found (resultOfIteration explored found) = text :: texts :=
    ⟨_, by rw [errorTexts, h]; rfl⟩
  obtain ⟨rest, hjoined⟩ := Text.exists_intercalate_cons "\n" text texts
  refine ⟨hresult, congrArg some hresult, rest, ?_⟩
  rw [← hjoined, ← htexts]
  simp [reportOf, htexts]

theorem lacks_reportOf {explored : Exploration} {e : StorageError}
    (h : explored.error = some (unstoredText e)) (found : Classified) (elapsed : Duration) :
    (reportOf ctx iteration explored found elapsed).result = .error ∧
      Lacks (reportOf ctx iteration explored found elapsed).record iteration e := by
  obtain ⟨hresult, hrecord, herrors⟩ :
      (reportOf ctx iteration explored found elapsed).result = .error ∧ _ ∧ _ :=
    errors_reportOf h found elapsed
  exact ⟨hresult, rfl, hrecord, herrors⟩

/-- If the store refuses a write and the iteration goes on to its end, it is the row of a partition
that is not classified, and the iteration fails. -/
theorem Analyzes.of_refused {report : IterationReport} {w : StoreWrite} {e : StorageError}
    (h : Analyzes ctx iteration es (.ok report)) (hw : .wrote w (.error e) ∈ es) :
    (∃ index, w = indexRow ctx iteration index) ∧ report.result = .error ∧
      Lacks report.record iteration e := by
  cases h with
  | @done es es' _ _ _ _ explores judges =>
    have hchecking : .wrote w (.error e) ∉ es' := fun hw => by cases judges.checked.1 _ hw
    have hexplores : .wrote w (.error e) ∈ es := by simpa [hchecking] using hw
    obtain ⟨hrow, herror⟩ := explores.of_refused hexplores
    exact ⟨hrow, lacks_reportOf herror _ _⟩

/-- An iteration that fails is the last one. -/
theorem Iterates.of_refused {remaining : Nat} {progress progress' : Progress} {reason : StopReason}
    {w : StoreWrite} {e : StorageError}
    (h : Iterates ctx remaining progress es (.ok (progress', reason)))
    (hw : .wrote w (.error e) ∈ es) :
    ∃ record iteration index, w = indexRow ctx iteration index ∧
      progress'.iterations.getLast? = some record ∧ Lacks record iteration e := by
  have hlast {progress : Progress} {es : History} {report : IterationReport}
      (analyzes : Analyzes ctx progress.next es (.ok report)) (hw : .wrote w (.error e) ∈ es) :
      ∃ record iteration index, w = indexRow ctx iteration index ∧
        (progress.analyzed report).iterations.getLast? = some record ∧
          Lacks record iteration e := by
    obtain ⟨⟨index, hrow⟩, -, hlacks⟩ := analyzes.of_refused hw
    exact ⟨_, _, index, hrow, by simp [Progress.analyzed], hlacks⟩
  have hnone {progress : Progress} {es : History} {report : IterationReport}
      (analyzes : Analyzes ctx progress.next es (.ok report))
      (goOn : stopAfter? report.result ctx.settings.run.tool.canIterate = none) :
      .wrote w (.error e) ∉ es := by
    intro hw
    rw [(analyzes.of_refused hw).2.1] at goOn
    cases goOn
  generalize hr : Except.ok (progress', reason) = r at h
  induction h with
  | exhausted | failed => cases hr
  | timedOut analyzes | stopped analyzes =>
    cases hr
    exact hlast analyzes hw
  | unrefined analyzes _ goOn refines => cases refines <;> simp [hnone analyzes goOn] at hw
  | next analyzes _ goOn refines _ ih =>
    cases refines
    exact ih (by simpa [hnone analyzes goOn] using hw) hr

theorem Runs.of_refused {request : RunRequest} {outcome : RunOutcome} {w : StoreWrite}
    {e : StorageError} (runs : Runs ctx request es (.ok outcome)) (hw : .wrote w (.error e) ∈ es) :
    ∃ record iteration index, w = indexRow ctx iteration index ∧
      outcome.iterations.getLast? = some record ∧ Lacks record iteration e := by
  -- A run with an outcome has no refusals, so that the write can only be the exception.
  have hrow : w.isIndexRow = true := by
    simpa [Event.isRefusal] using runs.surfaces.of_ok _ hw
  have hnone {es : History} (ho : ∀ e ∈ es, e.isOutside) : .wrote w (.error e) ∉ es := by
    intro hw
    have hout := ho _ hw
    cases w <;> first | cases hrow | cases hout
  rcases runs.of_ok with ⟨hout, -⟩ | ⟨before, es, behind, progress, rfl, hbefore, hbehind, iterates,
    hiterations, -⟩
  · exact absurd hw (hnone hout)
  · rw [hiterations]
    exact iterates.of_refused (by simpa [hnone hbefore, hnone hbehind] using hw)

end Run

/-! ## Runs -/

/-- What becomes of refused writes: a run fails for the store exactly if the last event is the
refusal of something else than the row of a partition that is not classified yet, and nothing
happens behind such a refusal. Where a row of that kind is refused and the run still has an outcome,
the last iteration is an error with the text of the failure. -/
structure RefusalsEnd (h : History) (r : Except Failure RunOutcome) : Prop where
  last : ∀ {before after w e}, h = before ++ .wrote w (.error e) :: after →
    w.isIndexRow = false → after = []
  returned_iff : ∀ e, r = .error (.storage e) ↔
    ∃ before w, h = before ++ [.wrote w (.error e)] ∧ w.isIndexRow = false
  swallowed : ∀ {w e outcome}, .wrote w (.error e) ∈ h → r = .ok outcome →
    ∃ row record, w = .partition row ∧ row.isClassified = false ∧
      outcome.iterations.getLast? = some record ∧ Run.Lacks record row.iteration e

/-- A failure of the store ends a run, unless it concerns a partition that is not classified yet. -/
theorem refusals_end {σ : Type} (settings : Settings) (env : Environment (StateM σ))
    (request : RunRequest) (s : σ) :
    RefusalsEnd (settings.history env request s) ((settings.analyze env request).run s).1 := by
  rcases settings.runs_or env request s with ⟨watchdog, runs⟩ | ⟨hnone, hr⟩
  · have surfaces := runs.surfaces
    refine ⟨fun heq other => (surfaces.of_eq heq other).1, fun e => ⟨surfaces.exists_refused, ?_⟩,
      ?_⟩
    · rintro ⟨before, w, heq, other⟩
      exact (surfaces.of_eq heq other).2
    · intro w e outcome hw hr
      rw [hr] at runs
      obtain ⟨record, iteration, index, rfl, hlast, hlacks⟩ := runs.of_refused hw
      exact ⟨_, record, rfl, rfl, hlast, hlacks⟩
  · rw [hnone, hr]
    exact ⟨by simp, by simp, by simp⟩

/-- The small environment, with a store that refuses partitions that are not classified. -/
def Environment.refusing (p : Partition) (status : QueryKind → Status) (e : StorageError) :
    Environment (StateM Bool) :=
  { Environment.delivering p status with
    write := fun w => pure (if w.isIndexRow then .error e else .ok ()) }

/-- A run with such a store has an outcome, whose only iteration lacks the partition. -/
theorem refusals_end_unchanged :
    ∃ outcome, RefusalsEnd
        ((Settings.default 1).history (.refusing unchanged agreeing (.database "injected"))
          { benchmark := "f" } false) (.ok outcome) ∧
      outcome.run.result = some .error ∧
      outcome.iterations.map (·.errors) =
        [some "symbolic execution failed: Storage error: [database] injected"] := by
  have hrun : (((Settings.default 1).analyze
      (.refusing unchanged agreeing (.database "injected"))
      { benchmark := "f" }).run false).1.toOption.map
        (fun outcome => (outcome.run.result, outcome.iterations.map (·.errors))) =
      some (some .error,
        [some "symbolic execution failed: Storage error: [database] injected"]) := by
    decide +kernel
  obtain ⟨outcome, hr, heq⟩ := exists_ok_of_toOption hrun
  obtain ⟨hresult, herrors⟩ := Prod.mk.inj heq
  refine ⟨outcome, ?_, hresult, herrors⟩
  rw [← hr]
  exact refusals_end ..

end Regression
