import Regression.Proofs.Oracle.Classifying
import Regression.Proofs.Run.Refusals
import Regression.Proofs.Store.Validity
import Regression.Rehearsal.Stage

/-!
# The rows of a run

No row that a run puts into the store is refused for what is in it, and no failure is without a
text. The text of an error starts at the failure of a query, of the preparation, of the exploration
or of a refinement, and is passed on from partitions to iterations and from these to the run.

* `Oracle.Checks.explained`: partitions.
* `Run.Explores.isReport`: iterations.
* `Run.Iterates.explained`, `Run.explains_concluded`: the run.
* `Run.Runs.sound`: all rows that are written.
* `rows_explained`: the same for all runs, and what a run returns.
-/

namespace Regression

open History

/-! ## Events -/

def Event.IsSound : Event → Prop
  | .wrote w _ => w.Sound
  | _ => True

/-- Everything that was to be written could be taken, and says what went wrong. -/
def History.Sound (h : History) : Prop := ∀ e ∈ h, e.IsSound

theorem Event.isSound_of_isFromDesk {e : Event} (h : e.isFromDesk) : e.IsSound := by
  cases e with
  | wrote => cases h
  | _ => trivial

theorem History.Sound.append {h h' : History} (hs : h.Sound) (hs' : h'.Sound) : (h ++ h').Sound :=
  List.forall_mem_append.mpr ⟨hs, hs'⟩

theorem History.Sound.cons {e : Event} {h : History} (he : e.IsSound) (hs : h.Sound) :
    History.Sound (e :: h) :=
  List.forall_mem_cons.mpr ⟨he, hs⟩

theorem History.sound_nil : History.Sound [] := by
  intro e he
  cases he

theorem History.sound_singleton {e : Event} (he : e.IsSound) : History.Sound [e] :=
  .cons he sound_nil

theorem RunContext.isBlankText_expiryText (ctx : RunContext) :
    Text.isBlankText ctx.expiryText = false :=
  Text.isBlankText_append_left (Text.isBlankText_append_left (by decide) _) _

/-! ## Partitions -/

/-- A verdict that can be stored: it has no classification of whole runs, and an error has a
text. -/
structure Verdict.Explained (v : Verdict) : Prop where
  level : v.result.1.isRunLevelOnly = false
  inTime : v.result.1 ≠ .timeout
  error : v.result.1 = .error → ∃ text, v.result.2 = some text ∧ Text.isBlankText text = false

theorem Oracle.Checks.explained {timeoutMs : UInt64} {iteration : UInt32} {p : Partition}
    {es : History} {v : Verdict} (checks : Checks timeoutMs iteration p es v) : v.Explained := by
  obtain ⟨c, hc⟩ := checks.exists_isClassified
  have hresult : v.result = (c, v.error) := by rw [Verdict.result, hc.classify]
  constructor
  · rw [hresult]
    cases c with
    | missing => exact absurd rfl hc.notMissing.1
    | baseToolMissing => exact absurd rfl hc.notMissing.2
    | _ => rfl
  · rw [hresult]
    exact hc.inTime
  · rw [hresult]
    intro herror
    have hsome : v.error.isSome := hc.error.mp herror
    obtain ⟨statuses, failure, runtime, -, rfl⟩ := checks
    cases failure with
    | none => cases hsome
    | some e => exact ⟨e.message, rfl, e.isBlankText_message⟩

theorem Oracle.ChecksAll.explained {timeoutMs : UInt64} {iteration : UInt32}
    {partitions : List Partition} {es : History} {verdicts : List Verdict}
    (checks : ChecksAll timeoutMs iteration partitions es verdicts) :
    ∀ v ∈ verdicts, v.Explained := by
  obtain ⟨parts, hchecks, -⟩ := checks
  exact List.forall_mem_map.mpr fun c hc => (hchecks c hc).explained

theorem Oracle.ChecksAll.explained_zip {timeoutMs : UInt64} {iteration : UInt32}
    {batch : List Partition} {es : History} {verdicts : List Verdict}
    (checks : ChecksAll timeoutMs iteration batch es verdicts) :
    ∀ j ∈ batch.zip verdicts, j.2.Explained :=
  fun _ hj => checks.explained _ (List.of_mem_zip hj).2

/-- What was found among partitions that can be stored. -/
structure Classified.Explained (f : Classified) : Prop where
  inTime : .timeout ∉ f.classes
  error : .error ∈ f.classes → ∃ text ∈ f.errors, Text.isBlankText text = false
  aborted : ∀ text, f.error = some text → Text.isBlankText text = false

theorem Classified.Explained.add {f : Classified} {v : Verdict} (hf : f.Explained)
    (hv : v.Explained) (p : Partition) : (f.add p v).Explained := by
  have hclasses : (f.add p v).classes = f.classes ++ [v.result.1] := rfl
  constructor
  · rw [hclasses, List.mem_append, List.mem_singleton]
    rintro (hmem | heq)
    · exact hf.inTime hmem
    · exact hv.inTime heq.symm
  · rw [hclasses, List.mem_append, List.mem_singleton]
    rintro (hmem | heq)
    · obtain ⟨text, htext, hblank⟩ := hf.error hmem
      exact ⟨text, List.mem_append_left _ htext, hblank⟩
    · obtain ⟨text, htext, hblank⟩ := hv.error heq.symm
      refine ⟨"P" ++ toString v.index.toNat ++ ": " ++ text, ?_,
        Text.isBlankText_append_right _ hblank⟩
      simp [Classified.add, htext]
  · exact hf.aborted

namespace Run

variable {ctx : RunContext} {iteration : UInt32} {es : History}

theorem sound_verdictRow {v : Verdict} (hv : v.Explained) (ctx : RunContext)
    (iteration : UInt32) : (verdictRow ctx iteration v).Sound := by
  refine StoreWrite.sound_partition ?_ ?_
  · intro c hc hresult
    obtain rfl : c = .error := List.mem_singleton.mp hc
    obtain ⟨text, htext, hblank⟩ := hv.error (Option.some.inj hresult)
    have herrors : (v.record ctx.benchmark ctx.tool iteration).errors = some text := htext
    rw [herrors]
    exact hasText_some hblank
  · intro c hresult
    obtain rfl : v.result.1 = c := Option.some.inj hresult
    exact hv.level

theorem sound_indexRow (ctx : RunContext) (iteration index : UInt32) :
    (indexRow ctx iteration index).Sound := by
  refine StoreWrite.sound_partition (explains_none _ _) ?_
  intro c hc
  cases hc

/-! ## Iterations -/

theorem Pulls.sound {last : Option UInt32} {r : List Partition × Ending}
    (h : Pulls ctx iteration last es r) : es.Sound := by
  induction h with
  | expired | failed | drained | outOfOrder => exact sound_singleton trivial
  | unstored => exact .cons trivial (sound_singleton (sound_indexRow ..))
  | next _ _ ih => exact .cons trivial (.cons (sound_indexRow ..) ih)

theorem Explores.sound {explored : Exploration} (h : Explores ctx iteration es explored) :
    es.Sound := by
  cases h with
  | expired | failed => exact sound_singleton trivial
  | delivered delivers =>
    cases delivers with
    | expired | failed => exact .cons trivial (sound_singleton trivial)
    | pulled pulls => exact .cons trivial (.cons trivial pulls.sound)

/-- The text of a failed exploration begins with the phase that failed. -/
theorem Explores.isBlankText_error {explored : Exploration} {text : String}
    (h : Explores ctx iteration es explored) (htext : explored.error = some text) :
    Text.isBlankText text = false := by
  cases h with
  | expired => cases htext
  | failed =>
    obtain rfl := Option.some.inj htext
    exact Text.isBlankText_append_left (by decide) _
  | @delivered _ partitions ending timings =>
    cases ending with
    | drained | expired => cases htext
    | failed e =>
      obtain rfl := Option.some.inj htext
      exact Text.isBlankText_append_left (by decide) _

theorem Concludes.sound {items : List (Partition × Verdict)} {found : Classified}
    {r : Except Failure Classified} (h : Concludes ctx iteration items found es r)
    (hitems : ∀ j ∈ items, j.2.Explained) : es.Sound := by
  induction h with
  | done => exact sound_nil
  | failed => exact sound_singleton (sound_verdictRow (List.forall_mem_cons.mp hitems).1 ..)
  | next _ ih =>
    obtain ⟨hfirst, hrest⟩ := List.forall_mem_cons.mp hitems
    exact .cons (sound_verdictRow hfirst ..) (ih hrest)

theorem Concludes.explained {items : List (Partition × Verdict)} {found found' : Classified}
    (h : Concludes ctx iteration items found es (.ok found')) (hfound : found.Explained)
    (hitems : ∀ j ∈ items, j.2.Explained) : found'.Explained := by
  generalize hr : Except.ok found' = r at h
  induction h with
  | done =>
    cases hr
    exact hfound
  | failed => cases hr
  | @next p _ _ _ _ _ _ ih =>
    obtain ⟨hfirst, hrest⟩ := List.forall_mem_cons.mp hitems
    exact ih (hfound.add hfirst p) hrest hr

theorem Classifies.sound {pieces : List (List Partition)} {found : Classified}
    {r : Except Failure Classified} (h : Classifies ctx iteration pieces found es r) :
    es.Sound := by
  have hdesk {batch : List Partition} {es : History} {verdicts : List Verdict}
      (checks : Oracle.ChecksAll ctx.settings.solver.timeoutMs iteration batch es verdicts) :
      es.Sound := fun e he => Event.isSound_of_isFromDesk (checks.isFromDesk e he)
  induction h with
  | done => exact sound_nil
  | expired => exact sound_singleton trivial
  | abandoned checks | aborted checks =>
    exact .cons trivial ((hdesk checks).append (sound_singleton trivial))
  | failed checks concludes =>
    exact .cons trivial ((hdesk checks).append
      (.cons trivial (concludes.sound checks.explained_zip)))
  | next checks concludes _ ih =>
    exact .cons trivial ((hdesk checks).append
      (.cons trivial ((concludes.sound checks.explained_zip).append ih)))

/-- What was found before the watchdog expired or a batch was aborted can be stored, and the text of
an aborted batch says so. -/
theorem Classifies.explained {pieces : List (List Partition)} {found found' : Classified}
    (h : Classifies ctx iteration pieces found es (.ok found')) (hfound : found.Explained) :
    found'.Explained := by
  generalize hr : Except.ok found' = r at h
  induction h with
  | done =>
    cases hr
    exact hfound
  | expired | abandoned =>
    cases hr
    exact ⟨hfound.inTime, hfound.error, hfound.aborted⟩
  | @aborted _ _ _ _ _ cause =>
    cases hr
    refine ⟨hfound.inTime, hfound.error, fun text htext => ?_⟩
    obtain rfl := Option.some.inj htext
    exact Text.isBlankText_append_left (by decide) cause
  | failed => cases hr
  | next checks concludes _ ih => exact ih (concludes.explained hfound checks.explained_zip) hr

theorem Judges.sound {explored : Exploration} {r : Except Failure Classified}
    (h : Judges ctx iteration explored es r) : es.Sound := by
  cases h with
  | expired => exact sound_nil
  | classified _ classifies => exact classifies.sound

theorem Judges.explained {explored : Exploration} {found : Classified}
    (h : Judges ctx iteration explored es (.ok found)) : found.Explained := by
  cases h with
  | expired => exact ⟨by simp, by simp, nofun⟩
  | classified _ classifies => exact classifies.explained ⟨by simp, by simp, nofun⟩

/-- The record of an iteration that was analysed. -/
structure IsReport (record : IterationRecord) : Prop where
  result : record.result.isSome
  explains : Explains [.error, .timeout] record.result record.errors

/-- An iteration that failed or timed out has a text: that of the exploration, that of an aborted
batch, that of the watchdog, or those of partitions. -/
theorem exists_mem_errorTexts {explored : Exploration} {found : Classified}
    (hexplored : ∀ text, explored.error = some text → Text.isBlankText text = false)
    (hfound : found.Explained)
    (hresult : resultOfIteration explored found ∈ [Classification.error, .timeout]) :
    ∃ text ∈ errorTexts ctx explored found (resultOfIteration explored found),
      Text.isBlankText text = false := by
  unfold errorTexts
  cases herror : explored.error with
  | some text => exact ⟨text, by simp, hexplored text herror⟩
  | none =>
    cases haborted : found.error with
    | some text => exact ⟨text, by simp, hfound.aborted text haborted⟩
    | none =>
      cases htimedOut : found.timedOut with
      | true => exact ⟨ctx.expiryText, by simp, ctx.isBlankText_expiryText⟩
      | false =>
        have hfold : resultOfIteration explored found = foldPartitions found.classes := by
          simp [resultOfIteration, classifyIteration, herror, haborted, htimedOut]
        rw [hfold] at hresult ⊢
        rcases foldPartitions_mem found.classes with hmem | hunknown
        · rcases List.mem_cons.mp hresult with heq | hrest
          · rw [heq] at hmem ⊢
            obtain ⟨text, htext, hblank⟩ := hfound.error hmem
            exact ⟨text, by simpa using htext, hblank⟩
          · rw [List.mem_singleton.mp hrest] at hmem
            exact absurd hmem hfound.inTime
        · rw [hunknown] at hresult
          simp at hresult

theorem Explores.isReport {es' : History} {explored : Exploration} {found : Classified}
    (explores : Explores ctx iteration es explored)
    (judges : Judges ctx iteration explored es' (.ok found)) (elapsed : Duration) :
    IsReport (reportOf ctx iteration explored found elapsed).record := by
  refine ⟨rfl, ?_⟩
  intro c hc hresult
  obtain rfl : resultOfIteration explored found = c := Option.some.inj hresult
  obtain ⟨text, htext, hblank⟩ : ∃ text ∈
      errorTexts ctx explored found (resultOfIteration explored found),
      Text.isBlankText text = false :=
    exists_mem_errorTexts (fun _ => explores.isBlankText_error) judges.explained hc
  have herrors : (reportOf ctx iteration explored found elapsed).record.errors =
      some ("\n".intercalate
        (errorTexts ctx explored found (resultOfIteration explored found))) := by
    have hne := List.ne_nil_of_mem htext
    simp [reportOf, hne]
  rw [herrors]
  exact hasText_some (Text.isBlankText_intercalate "\n" htext hblank)

theorem sound_startedRow (ctx : RunContext) (iteration : UInt32) :
    (startedRow ctx iteration).Sound :=
  StoreWrite.sound_iteration (explains_none _ _)

theorem Analyzes.explained {report : IterationReport}
    (h : Analyzes ctx iteration es (.ok report)) : IsReport report.record := by
  cases h with
  | done explores judges => exact explores.isReport judges _

theorem Analyzes.sound {r : Except Failure IterationReport}
    (h : Analyzes ctx iteration es r) : es.Sound := by
  have hstarted : (startedRow ctx iteration).Sound := sound_startedRow ctx iteration
  have hreport {es es' : History} {explored : Exploration} {found : Classified}
      (explores : Explores ctx iteration es explored)
      (judges : Judges ctx iteration explored es' (.ok found)) (elapsed : Duration) :
      (StoreWrite.iteration (reportOf ctx iteration explored found elapsed).record).Sound :=
    StoreWrite.sound_iteration (explores.isReport judges elapsed).explains
  cases h with
  | unstarted => exact sound_singleton hstarted
  | failed explores judges => exact .cons hstarted (explores.sound.append judges.sound)
  | unstored explores judges =>
    refine .cons hstarted (explores.sound.append (judges.sound.append ?_))
    exact sound_singleton (hreport explores judges _)
  | unlisted explores judges | done explores judges =>
    refine .cons hstarted (explores.sound.append (judges.sound.append ?_))
    exact .cons (hreport explores judges _) (sound_singleton trivial)

/-! ## The whole run -/

theorem Refines.sound {refined : List String} {inconclusive : NameSet}
    {r : Except StopReason String} (h : Refines ctx refined inconclusive es r) : es.Sound := by
  cases h with
  | exhausted => exact sound_singleton trivial
  | expired | failed | expanded => exact .cons trivial (sound_singleton trivial)

theorem Iterates.sound {remaining : Nat} {progress : Progress}
    {r : Except Failure (Progress × StopReason)} (h : Iterates ctx remaining progress es r) :
    es.Sound := by
  induction h with
  | exhausted => exact sound_nil
  | failed analyzes | timedOut analyzes | stopped analyzes => exact analyzes.sound
  | unrefined analyzes _ _ refines => exact analyzes.sound.append refines.sound
  | next analyzes _ _ refines _ ih => exact analyzes.sound.append (refines.sound.append ih)

/-- All iterations have results and texts, and so does a failed refinement. -/
structure Explained (progress : Progress) (reason : StopReason) : Prop where
  iterations : ∀ record ∈ progress.iterations, IsReport record
  refinement : ∀ text, reason = .refinementFailed text → Text.isBlankText text = false

theorem Refines.isBlankText_of_failed {refined : List String} {inconclusive : NameSet}
    {text : String} (h : Refines ctx refined inconclusive es (.error (.refinementFailed text))) :
    Text.isBlankText text = false := by
  cases h with
  | failed => exact Failure.isBlankText_message _

theorem Iterates.explained {remaining : Nat} {progress progress' : Progress} {reason : StopReason}
    (h : Iterates ctx remaining progress es (.ok (progress', reason)))
    (hprogress : ∀ record ∈ progress.iterations, IsReport record) :
    Explained progress' reason := by
  have hanalyzed {progress : Progress} {es : History} {report : IterationReport}
      (hprogress : ∀ record ∈ progress.iterations, IsReport record)
      (analyzes : Analyzes ctx progress.next es (.ok report)) :
      ∀ record ∈ (progress.analyzed report).iterations, IsReport record := by
    have hreport : IsReport report.record := analyzes.explained
    exact List.forall_mem_append.mpr ⟨hprogress, List.forall_mem_singleton.mpr hreport⟩
  generalize hr : Except.ok (progress', reason) = r at h
  induction h with
  | exhausted | failed => cases hr
  | timedOut analyzes =>
    cases hr
    exact ⟨hanalyzed hprogress analyzes, by simp⟩
  | stopped analyzes _ stop =>
    cases hr
    refine ⟨hanalyzed hprogress analyzes, fun text heq => ?_⟩
    rcases stopAfter?_eq_some stop with hfinal | hsingle
    · rw [hfinal] at heq
      cases heq
    · rw [hsingle] at heq
      cases heq
  | unrefined analyzes _ _ refines =>
    cases hr
    refine ⟨hanalyzed hprogress analyzes, ?_⟩
    rintro text rfl
    exact refines.isBlankText_of_failed
  | next analyzes _ _ _ _ ih => exact ih (hanalyzed hprogress analyzes) hr

/-- The record of a run has the text of its last iteration, unless it was stopped otherwise. -/
theorem explains_concluded {progress : Progress} {reason : StopReason}
    (h : Explained progress reason) (hne : progress.iterations ≠ []) (run : RunRecord) :
    Explains [.error, .timeout] (concluded ctx run progress reason).result
      (concluded ctx run progress reason).errors := by
  have hlast {record : IterationRecord} (hrecord : progress.iterations.getLast? = some record) :
      Explains [.error, .timeout]
        (some (classifyRun (progress.iterations.filterMap (·.result))))
        (progress.iterations.getLast?.bind (·.errors)) := by
    have hreport : IsReport record := h.iterations record (List.mem_of_getLast? hrecord)
    rw [classifyRun_filterMap hrecord hreport.result, hrecord]
    exact hreport.explains
  obtain ⟨record, hrecord⟩ : ∃ record, progress.iterations.getLast? = some record :=
    ⟨_, List.getLast?_eq_some_getLast hne⟩
  cases reason with
  | timedOut =>
    refine Explains.of_hasText (hasText_some ?_) _ _
    cases hfilter : (progress.iterations.getLast?.bind (·.errors)).filter
      (Text.occursIn "timed out" ·) with
    | none => exact ctx.isBlankText_expiryText
    | some text =>
      obtain ⟨-, hoccurs⟩ := Option.filter_eq_some_iff.mp hfilter
      exact Text.isBlankText_of_occursIn (by decide) hoccurs
  | refinementFailed text =>
    exact Explains.of_hasText (hasText_some (h.refinement text rfl)) _ _
  | _ => exact hlast hrecord

theorem Opens.sound {r : Except Failure RunRecord} (h : Opens ctx es r) : es.Sound := by
  have hdelete := StoreWrite.sound_deleteRun ctx.benchmark ctx.tool
  have hopening (today : Timestamp) : (StoreWrite.run (opening ctx today)).Sound :=
    StoreWrite.sound_run (explains_none _ _)
  cases h with
  | undeleted => exact sound_singleton hdelete
  | unreset => exact .cons hdelete (sound_singleton trivial)
  | unstored | opened => exact .cons hdelete (.cons trivial (sound_singleton (hopening _)))

theorem Looks.sound {request : RunRequest} {missing? : Option String}
    (h : Looks request es missing?) : es.Sound := by
  cases h with
  | unasked => exact sound_nil
  | found | missing => exact sound_singleton trivial

theorem PutsAll.sound {rows : List StoreWrite} {r : Except Failure Unit}
    (h : PutsAll rows es r) (hrows : ∀ w ∈ rows, w.Sound) : es.Sound := by
  induction h with
  | done => exact sound_nil
  | failed => exact sound_singleton (hrows _ List.mem_cons_self)
  | next _ ih =>
    obtain ⟨hrow, hrest⟩ := List.forall_mem_cons.mp hrows
    exact .cons hrow (ih hrest)

theorem Finishes.sound {run : RunRecord} {progress : Progress} {reason : StopReason}
    {r : Except Failure RunOutcome} (h : Finishes ctx run progress reason es r)
    (hrun : Explains [.error, .timeout] run.result run.errors) : es.Sound := by
  have hcompleted (elapsed : Duration) :
      (StoreWrite.run (completed run progress.iterations reason elapsed)).Sound :=
    StoreWrite.sound_run hrun
  have htimes (times : List TimeRecord) : ∀ w ∈ times.map StoreWrite.time, w.Sound :=
    List.forall_mem_map.mpr fun time _ => StoreWrite.sound_time time
  cases h with
  | unstored => exact sound_singleton (hcompleted _)
  | failed _ puts | done _ puts => exact .cons (hcompleted _) (puts.sound (htimes _))

/-- Everything that a run puts into the store can be taken, and says what went wrong. -/
theorem Runs.sound {request : RunRequest} {r : Except Failure RunOutcome}
    (runs : Runs ctx request es r) : es.Sound := by
  cases runs with
  | unopened opens => exact opens.sound
  | missing opens looks finishes =>
    have hrun (run : RunRecord) (input : String) : Explains [.error, .timeout]
        (withoutInput run input).result (withoutInput run input).errors := by
      intro c hc hresult
      obtain rfl := Option.some.inj hresult
      simp at hc
    exact opens.sound.append (looks.sound.append (finishes.sound (hrun _ _)))
  | failed opens looks iterates =>
    exact opens.sound.append (looks.sound.append iterates.sound)
  | @iterated _ _ _ _ run progress reason _ opens looks iterates finishes =>
    have hexplained : Explained progress reason := iterates.explained (by simp)
    have hrun : Explains [.error, .timeout] (concluded ctx run progress reason).result
        (concluded ctx run progress reason).errors :=
      explains_concluded hexplained iterates.iterations_ne_nil run
    exact opens.sound.append (looks.sound.append (iterates.sound.append (finishes.sound hrun)))

/-- A run that ends well has a result. -/
theorem Runs.isSome_result {request : RunRequest} {outcome : RunOutcome}
    (runs : Runs ctx request es (.ok outcome)) : outcome.run.result.isSome := by
  rcases runs.of_ok with ⟨-, -, -, hresult⟩ | ⟨_, _, _, _, -, -, -, -, -, hresult⟩
  · rw [hresult]
    rfl
  · rw [hresult]
    rfl

end Run

/-! ## Runs -/

/-- The store calls nothing invalid that passes the check of its rows. -/
def Environment.RefusesOnlyInvalid {σ : Type} (env : Environment (StateM σ)) : Prop :=
  ∀ w s e, ((env.write w).run s).1 = .error e → e.kind = .invalidRecord → w.validate ≠ .ok ()

/-- The stores that are rehearsed call nothing invalid but rows that contradict themselves. -/
theorem Rehearsal.environment_refusesOnlyInvalid : environment.RefusesOnlyInvalid := by
  intro w s e herror hkind hvalid
  change ((write w).run s).1 = .error e at herror
  simp only [write, modifyGet, MonadStateOf.modifyGet, StateT.modifyGet, StateT.run] at herror
  split at herror
  · cases herror
    cases hkind
  · cases hwrite : s.store.write w with
    | error e' =>
      rw [hwrite] at herror
      cases herror
      have hcheck : w.validate = .error e := ResultStore.validate_eq_error hwrite hkind
      rw [hvalid] at hcheck
      cases hcheck
    | ok store =>
      rw [hwrite] at herror
      cases herror

/-- No row is refused for what is in it, errors say what went wrong, and so does everything that the
watchdog stopped. A run that ends well has a result. -/
structure RowsExplained {σ : Type} (env : Environment (StateM σ)) (h : History)
    (r : Except Failure RunOutcome) : Prop where
  rows : ∀ w result, .wrote w result ∈ h → w.validate = .ok () ∧ w.Explained
  accepted : env.RefusesOnlyInvalid → ∀ e, r = .error (.storage e) → e.kind ≠ .invalidRecord
  result : ∀ outcome, r = .ok outcome → outcome.run.result.isSome

/-- All rows of a run are valid and explained, whatever the environment does. -/
theorem rows_explained {σ : Type} (settings : Settings) (env : Environment (StateM σ))
    (request : RunRequest) (s : σ) :
    RowsExplained env (settings.history env request s)
      ((settings.analyze env request).run s).1 := by
  have hcan := ((settings.shows_analyze env request).holds s).2
  rcases settings.runs_or env request s with ⟨watchdog, runs⟩ | ⟨hnone, hr⟩
  · have hrows : ∀ w result, .wrote w result ∈ settings.history env request s → w.Sound :=
      fun w result hw => runs.sound _ hw
    refine ⟨fun w result hw => ⟨(hrows w result hw).valid, (hrows w result hw).explained⟩, ?_, ?_⟩
    · intro hinvalid e hr hkind
      obtain ⟨before, w, heq, -⟩ := runs.surfaces.exists_refused hr
      have hw : .wrote w (.error e) ∈ settings.history env request s := by simp [heq]
      obtain ⟨s', hs'⟩ : ∃ s', ((env.write w).run s').1 = .error e := hcan _ hw
      exact hinvalid w s' e hs' hkind (hrows w _ hw).valid
    · intro outcome hr
      rw [hr] at runs
      exact runs.isSome_result
  · rw [hnone, hr]
    exact ⟨by simp, by simp, by simp⟩

/-- A stage where the versions cannot be prepared, and nothing is said about it. -/
def silentStage : Rehearsal.Stage where
  replay := { trace := { entries := [{ partitions := [unchanged] }] } }
  faults := [{ point := .prepare, error := some "" }]

/-- The text of the run tells which phase failed. -/
theorem rows_explained_rehearsal :
    Rehearsal.environment.RefusesOnlyInvalid ∧
      ∃ outcome, outcome.run.errors = some "instrumentation failed: Analysis error: " ∧
        RowsExplained Rehearsal.environment
          ((Settings.default 1).history Rehearsal.environment { benchmark := "f" } silentStage)
          (.ok outcome) := by
  refine ⟨Rehearsal.environment_refusesOnlyInvalid, ?_⟩
  have hrun : (((Settings.default 1).analyze Rehearsal.environment { benchmark := "f" }).run
      silentStage).1.toOption.map (·.run.errors) =
      some (some "instrumentation failed: Analysis error: ") := by
    decide +kernel
  obtain ⟨outcome, hr, herrors⟩ := exists_ok_of_toOption hrun
  refine ⟨outcome, herrors, ?_⟩
  rw [← hr]
  exact rows_explained ..

end Regression
