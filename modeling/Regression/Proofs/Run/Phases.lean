import Mathlib.Data.List.Nodup
import Regression.Proofs.Run.Refinement
import Regression.Proofs.Run.Stored
import Regression.Proofs.Stopwatch

/-!
# The phases of a run

Every phase of a run has a stopwatch. Which phases there were can be read off the history: those of
an iteration whose versions were prepared in time include its exploration, and those of an
iteration behind which a candidate was looked for include the refinement.

* `History.labels`: topics and tasks that are read off a history.
* `Run.shows_analyzeRequest_labels`: the stopwatches of a run have these labels, all of them were
  stopped in the end, and their times were written.
-/

namespace Regression

open History

/-! ## Phases of iterations -/

namespace Event

/-- The versions were prepared in time. -/
def isReady : Event → Bool
  | .prepared _ (.done (.ok ())) => true
  | _ => false

/-- A candidate for refinement was looked for. -/
def isSummarized : Event → Bool
  | .summarized _ => true
  | _ => false

/-- Neither the one nor the other. -/
def isIdle (e : Event) : Bool := !e.isReady && !e.isSummarized

theorem isIdle_of_isWork {e : Event} (h : e.isWork) : e.isIdle := by
  cases e <;> first | rfl | cases h

theorem isIdle_of_isOutside {e : Event} (h : e.isOutside) : e.isIdle := by
  cases e <;> first | rfl | cases h

end Event

namespace History

/-- The tasks of an iteration that have stopwatches; the first one, without a name, is the whole
iteration. -/
def tasks (piece : History) : List String :=
  ["", "instrumentation"] ++ (if piece.any Event.isReady then ["symbolic-execution"] else []) ++
    ["classification"] ++ if piece.any Event.isSummarized then ["refinement"] else []

/-- Topics and tasks of the stopwatches of some iterations, the first of which has a given
number. -/
def labelsFrom (first : Nat) (pieces : List History) : List (String × String) :=
  (pieces.zipIdx first).flatMap fun (piece, i) => piece.tasks.map (iterationTopic (.ofNat i), ·)

/-- Topics and tasks of the stopwatches of a run. -/
def labels (h : History) : List (String × String) :=
  [("run", ""), ("run", "initialization")] ++ labelsFrom 1 h.iterations ++ [("run", "finalization")]

theorem labelsFrom_cons (first : Nat) (piece : History) (pieces : List History) :
    labelsFrom first (piece :: pieces) =
      piece.tasks.map (iterationTopic (.ofNat first), ·) ++ labelsFrom (first + 1) pieces := by
  rw [labelsFrom, List.zipIdx_cons, List.flatMap_cons]
  rfl

theorem topic_of_mem_labelsFrom {first : Nat} {pieces : List History} {label : String × String}
    (h : label ∈ labelsFrom first pieces) : ∃ i, label.1 = iterationTopic i := by
  obtain ⟨⟨piece, i⟩, -, h⟩ := List.mem_flatMap.mp h
  obtain ⟨task, -, rfl⟩ := List.mem_map.mp h
  exact ⟨_, rfl⟩

theorem nodup_tasks (h : History) : h.tasks.Nodup := by
  unfold tasks
  cases h.any Event.isReady <;> cases h.any Event.isSummarized <;> decide

theorem nodup_labelsFrom {first : Nat} {pieces : List History}
    (hlt : first + pieces.length ≤ UInt32.size) : (labelsFrom first pieces).Nodup := by
  induction pieces generalizing first with
  | nil => exact List.nodup_nil
  | cons piece pieces ih =>
    rw [List.length_cons] at hlt
    rw [labelsFrom_cons, List.nodup_append]
    refine ⟨piece.nodup_tasks.map fun a b h => congrArg Prod.snd h, ih (by omega), ?_⟩
    rintro label hlabel label' hlabel' rfl
    obtain ⟨task, -, hlabel⟩ := List.mem_map.mp hlabel
    obtain ⟨⟨piece', i⟩, hpiece, hlabel'⟩ := List.mem_flatMap.mp hlabel'
    obtain ⟨task', -, rfl⟩ := List.mem_map.mp hlabel'
    have hnumber := congrArg UInt32.toNat (iterationTopic_inj (congrArg Prod.fst hlabel))
    have hle := List.le_snd_of_mem_zipIdx hpiece
    have hlt' := List.snd_lt_add_of_mem_zipIdx hpiece
    dsimp only at hle hlt'
    rw [UInt32.toNat_ofNat_of_lt' (by omega), UInt32.toNat_ofNat_of_lt' (by omega)] at hnumber
    omega

theorem nodup_labels {h : History} (hlt : h.iterations.length < UInt32.size) : h.labels.Nodup := by
  have hrun {label : String × String} (hmem : label ∈ labelsFrom 1 h.iterations) :
      label.1 ≠ "run" := by
    obtain ⟨i, hi⟩ := topic_of_mem_labelsFrom hmem
    exact hi ▸ iterationTopic_ne_run i
  have hperm : h.labels.Perm ([("run", ""), ("run", "initialization"), ("run", "finalization")] ++
      labelsFrom 1 h.iterations) := by
    rw [labels, List.append_assoc]
    exact List.Perm.append_left _ List.perm_append_comm
  rw [hperm.nodup_iff, List.nodup_append]
  refine ⟨by decide, nodup_labelsFrom (by omega), ?_⟩
  rintro label hlabel label' hlabel' rfl
  refine hrun hlabel' ?_
  simp only [List.mem_cons, List.not_mem_nil, or_false] at hlabel
  rcases hlabel with rfl | rfl | rfl <;> rfl

def Idle (h : History) : Prop := ∀ e ∈ h, e.isIdle

theorem idle_wrote (row : StoreWrite) (result : Except StorageError Unit) :
    Idle [.wrote row result] := by
  simp [Idle, Event.isIdle, Event.isReady, Event.isSummarized]

theorem Idle.any_isReady {h : History} (hi : h.Idle) : h.any Event.isReady = false := by
  rw [List.any_eq_false]
  intro e he
  have hidle := hi e he
  simp only [Event.isIdle, Bool.and_eq_true, Bool.not_eq_true'] at hidle
  simp [hidle.1]

theorem Idle.any_isSummarized {h : History} (hi : h.Idle) :
    h.any Event.isSummarized = false := by
  rw [List.any_eq_false]
  intro e he
  have hidle := hi e he
  simp only [Event.isIdle, Bool.and_eq_true, Bool.not_eq_true'] at hidle
  simp [hidle.2]

theorem tasks_append_idle {a b : History} (hb : b.Idle) : (a ++ b).tasks = a.tasks := by
  rw [tasks, tasks, List.any_append, List.any_append, hb.any_isReady, hb.any_isSummarized,
    Bool.or_false, Bool.or_false]

theorem tasks_idle_append {a b : History} (ha : a.Idle) : (a ++ b).tasks = b.tasks := by
  rw [tasks, tasks, List.any_append, List.any_append, ha.any_isReady, ha.any_isSummarized,
    Bool.false_or, Bool.false_or]

/-- The refinement of an iteration comes behind its other tasks. -/
theorem tasks_append_refining {a b : History} (ha : a.any Event.isSummarized = false)
    (hb : b.any Event.isSummarized = true) (hready : b.any Event.isReady = false) :
    (a ++ b).tasks = a.tasks ++ ["refinement"] := by
  rw [tasks, tasks, List.any_append, List.any_append, ha, hb, hready, Bool.or_false]
  simp

/-- No iteration with a larger number has a label yet. -/
def NewFrom (n : Nat) (labels : List (String × String)) : Prop :=
  ∀ i task, n < i → i < UInt32.size → (iterationTopic (.ofNat i), task) ∉ labels

theorem NewFrom.append {n : Nat} {labels : List (String × String)} (h : NewFrom n labels)
    (hn : n + 1 < UInt32.size) (tasks : List String) :
    NewFrom (n + 1) (labels ++ tasks.map (iterationTopic (.ofNat (n + 1)), ·)) := by
  intro i task hi hsize hmem
  rw [List.mem_append, List.mem_map] at hmem
  rcases hmem with hmem | ⟨task, -, hlabel⟩
  · exact h i task (by omega) hsize hmem
  · have hnumber := iterationTopic_inj (congrArg Prod.fst hlabel)
    have hsame := congrArg UInt32.toNat hnumber
    rw [UInt32.toNat_ofNat_of_lt' hn, UInt32.toNat_ofNat_of_lt' hsize] at hsame
    omega

theorem refinement_not_mem_tasks {h : History} (hs : h.any Event.isSummarized = false) :
    "refinement" ∉ h.tasks := by
  rw [tasks, hs]
  cases h.any Event.isReady <;> decide

end History

/-! ## The stopwatches of an iteration -/

theorem Shows.and {σ α : Type} {can : Event → Prop} {x : StateT History (StateM σ) α}
    {x₀ : StateM σ α} {P Q : α → History → Prop} (hP : Shows can x x₀ P) (hQ : Shows can x x₀ Q) :
    Shows can x x₀ fun a es => P a es ∧ Q a es := by
  intro hist s
  obtain ⟨es, hrun, hcan, hes⟩ := hP hist s
  obtain ⟨es', hrun', -, hes'⟩ := hQ hist s
  have hsame : es = es' := by
    have hhist := congrArg (·.1.2) (hrun.symm.trans hrun')
    exact List.append_cancel_left hhist
  subst hsame
  exact ⟨es, hrun, hcan, hes, hes'⟩

namespace Run

theorem Shows.and {σ α : Type} {can : Event → Prop} {w : Stopwatches}
    {x : RunM (StateT History (StateM σ)) α} {x₀ : RunM (StateM σ) α}
    {P Q : Except Failure (α × Stopwatches) → History → Prop} (hP : Shows can w x x₀ P)
    (hQ : Shows can w x x₀ Q) : Shows can w x x₀ fun r es => P r es ∧ Q r es :=
  Regression.Shows.and hP hQ

section

variable {ctx : RunContext} {iteration : UInt32}

theorem Explores.tasks_eq {es : History} {explored : Exploration}
    (h : Explores ctx iteration es explored) :
    es.tasks = ["", "instrumentation"] ++
      (if es.any Event.isReady then ["symbolic-execution"] else []) ++ ["classification"] := by
  obtain ⟨e, rest, rfl, hprepared, hwork⟩ := h.eq_cons
  have hrest : History.Idle rest := fun e he => Event.isIdle_of_isWork (hwork e he)
  have he : e.isSummarized = false := by cases e <;> first | rfl | cases hprepared
  rw [tasks, List.any_cons, List.any_cons, hrest.any_isSummarized, he]
  exact List.append_nil _

/-- What is judged and written does not count among the tasks of an iteration. -/
theorem Judges.tasks_eq {es es' : History} {explored : Exploration}
    {result : Except Failure Classified} (judges : Judges ctx iteration explored es' result)
    (row row' : StoreWrite) (path text : String) :
    tasks ([.wrote row (.ok ())] ++ (es ++ (es' ++
      [.wrote row' (.ok ()), .appended path text (.ok ())]))) = es.tasks := by
  refine (tasks_idle_append (idle_wrote _ _)).trans
    (tasks_append_idle (List.forall_mem_append.mpr ⟨?_, ?_⟩))
  · exact fun e he => Event.isIdle_of_isWork (judges.isWork.1 e he)
  · simp [Event.isIdle, Event.isReady, Event.isSummarized]

theorem Analyzes.any_isSummarized {es : History} {report : IterationReport}
    (h : Analyzes ctx iteration es (.ok report)) : es.any Event.isSummarized = false := by
  obtain ⟨e, rest, -, rfl, hprepared, hwork, -⟩ := h.accounted
  have he : e.isSummarized = false := by cases e <;> first | rfl | cases hprepared
  have hrest : History.Idle rest := fun e he => Event.isIdle_of_isWork (hwork e he)
  rw [List.any_cons, List.any_cons, he, hrest.any_isSummarized]
  rfl

/-- The labels of an iteration come from its events and those up to the next one. -/
theorem Analyzes.labelsFrom_eq {es : History} {report : IterationReport}
    (h : Analyzes ctx iteration es (.ok report)) {first : Nat} (hfirst : iteration = .ofNat first)
    (rest : History) :
    labelsFrom first (es ++ rest).iterations =
        (es ++ rest.cut.1).tasks.map (iterationTopic iteration, ·) ++
          labelsFrom (first + 1) rest.iterations ∧
      Idle (es ++ rest).cut.1 := by
  obtain ⟨e, es, -, rfl, hprepared, hwork, -⟩ := h.accounted
  have hcut : History.cut (.wrote (startedRow ctx iteration) (.ok ()) :: e :: es ++ rest) =
      ([.wrote (startedRow ctx iteration) (.ok ())], (e :: es ++ rest.cut.1) :: rest.cut.2) := by
    rw [List.cons_append, List.cons_append, cut_cons_of_not rfl, cut_cons hprepared,
      History.cut_append fun e he => Event.not_isPrepared_of_isWork (hwork e he)]
    rfl
  rw [iterations, hcut, labelsFrom_cons, ← hfirst]
  refine ⟨?_, idle_wrote _ _⟩
  have htasks : tasks (_ ++ (e :: es ++ rest.cut.1)) = _ :=
    tasks_idle_append (idle_wrote (startedRow ctx iteration) (.ok ()))
  rw [← htasks]
  rfl

/-- No times are written before the end of a run. -/
theorem Iterates.times_eq_nil {remaining : Nat} {progress progress' : Progress}
    {reason : StopReason} {es : History}
    (h : Iterates ctx remaining progress es (.ok (progress', reason))) :
    es.writes.filterMap StoreWrite.time? = [] := by
  have haside : Aside [] := by simp [Aside]
  obtain ⟨accounts, haccounts, -⟩ := h.accounts haside
  have haccount (a : Account) : (a.writes ctx).filterMap StoreWrite.time? = [] := by
    simp [Account.writes, List.filterMap_map, List.filterMap_cons, Function.comp_def, startedRow,
      indexRow, verdictRow, StoreWrite.time?]
  rw [haccounts.writes, List.filterMap_flatMap, List.flatMap_eq_nil_iff]
  exact fun a _ => haccount a

theorem filterMap_time? (run : RunRecord) (times : List TimeRecord) :
    (StoreWrite.run run :: times.map .time).filterMap StoreWrite.time? = times := by
  rw [List.filterMap_cons_none rfl, List.filterMap_map]
  exact List.filterMap_some

theorem iterations_of_isOutside {before h : History} (hbefore : ∀ e ∈ before, e.isOutside) :
    (before ++ h).iterations = h.iterations := by
  rw [iterations, cut_append (Aside.of_isOutside hbefore).quiet.not_isPrepared]
  rfl

theorem Refines.refining {refined : List String} {inconclusive : NameSet} {es : History}
    {r : Except StopReason String} (h : Refines ctx refined inconclusive es r) :
    es.any Event.isSummarized = true ∧ es.any Event.isReady = false := by
  cases h <;> exact ⟨rfl, rfl⟩

theorem idle_cut_of_isOutside {tail : History} (htail : ∀ e ∈ tail, e.isOutside) :
    Idle tail.cut.1 ∧ tail.iterations = [] := by
  rw [iterations, (Aside.of_isOutside htail).quiet.cut_eq]
  exact ⟨fun e he => Event.isIdle_of_isOutside (htail e he), rfl⟩

/-- The labels of the last iteration, behind which nothing was refined. -/
theorem Analyzes.labelsFrom_last {es tail : History} {report : IterationReport}
    (h : Analyzes ctx iteration es (.ok report)) {first : Nat} (hfirst : iteration = .ofNat first)
    (htail : Idle tail.cut.1) (hnone : tail.iterations = []) :
    labelsFrom first (es ++ tail).iterations = es.tasks.map (iterationTopic iteration, ·) := by
  rw [(h.labelsFrom_eq hfirst tail).1, tasks_append_idle htail, hnone]
  exact List.append_nil _

/-- The labels of an iteration that is refined, and of those that follow. -/
theorem Analyzes.labelsFrom_refined {es es' rest : History} {report : IterationReport}
    {refined : List String} {inconclusive : NameSet} {r : Except StopReason String}
    (h : Analyzes ctx iteration es (.ok report)) {first : Nat} (hfirst : iteration = .ofNat first)
    (refines : Refines ctx refined inconclusive es' r) (hrest : Idle rest.cut.1) :
    labelsFrom first (es ++ (es' ++ rest)).iterations =
      (es.tasks ++ ["refinement"]).map (iterationTopic iteration, ·) ++
        labelsFrom (first + 1) rest.iterations := by
  have hcut : (es' ++ rest).cut = (es' ++ rest.cut.1, rest.cut.2) :=
    History.cut_append refines.aside.1.quiet.not_isPrepared
  rw [(h.labelsFrom_eq hfirst _).1, iterations, hcut, ← List.append_assoc es,
    tasks_append_idle hrest, tasks_append_refining h.any_isSummarized refines.refining.1
      refines.refining.2]
  rfl

end

section

variable {σ : Type} (env : Environment (StateM σ)) (ctx : RunContext) {w : Stopwatches}

/-- Labels of stopwatches behind some work that ended well. -/
def Labels {α : Type} (labels : List (String × String)) (r : Except Failure (α × Stopwatches)) :
    Prop :=
  ∀ a w', r = .ok (a, w') → w'.labels = labels

theorem labels_ok {α : Type} {a : α} {labels : List (String × String)} (h : w.labels = labels) :
    Labels labels (.ok (a, w) : Except Failure (α × Stopwatches)) := by
  rintro _ _ ⟨⟩
  exact h

theorem labels_error {α : Type} {e : Failure} {labels : List (String × String)} :
    Labels labels (.error e : Except Failure (α × Stopwatches)) := by
  rintro _ _ ⟨⟩

theorem shows_explore_labels (topic : String) (iteration : UInt32) (htopic : ':' ∉ topic.toList)
    (hprepare : (topic, "instrumentation") ∉ w.labels)
    (hexplore : (topic, "symbolic-execution") ∉ w.labels) :
    Shows env.CanEmit w (explore env.observed ctx topic iteration) (explore env ctx topic iteration)
      fun r es => Labels (w.labels ++ (topic, "instrumentation") ::
        if es.any Event.isReady then [(topic, "symbolic-execution")] else []) r := by
  refine shows_bind_startWatch fun now => ?_
  refine shows_bind_lift (shows_noting fun s => ⟨_, s, rfl⟩) ?_
  rintro prepared es rfl
  refine shows_bind_stopWatch fun now' => ?_
  have hprepared : ((w.start (topic ++ ":instrumentation") now).stop (topic ++ ":instrumentation")
      now').labels = w.labels ++ [(topic, "instrumentation")] := by
    rw [Stopwatches.labels_stop]
    exact Stopwatches.labels_start_task htopic (by decide) hprepare now
  rcases prepared with (e | ⟨⟩) | _
  · exact shows_pure (labels_ok hprepared)
  · refine shows_bind_startWatch fun now'' => ?_
    refine shows_bind_lift (shows_deliver env ctx iteration) ?_
    rintro ⟨partitions, ending⟩ es -
    refine shows_bind_stopWatch fun now => ?_
    have hfresh : (topic, "symbolic-execution") ∉ w.labels ++ [(topic, "instrumentation")] := by
      rw [List.mem_append, List.mem_singleton]
      rintro (h | h)
      · exact hexplore h
      · simp at h
    have hname : ":symbolic-execution" = ":" ++ "symbolic-execution" := by decide
    have hexplored := Stopwatches.labels_start_task htopic hname (hprepared ▸ hfresh) now''
    refine shows_pure (labels_ok ?_)
    rw [Stopwatches.labels_stop, hexplored, hprepared, List.append_assoc]
    rfl
  · exact shows_pure (labels_ok hprepared)

theorem shows_conclude_labels (iteration : UInt32) (items : List (Partition × Verdict))
    (found : Classified) :
    Shows env.CanEmit w (conclude env.observed ctx iteration items found)
      (conclude env ctx iteration items found) fun r _ => Labels w.labels r := by
  induction items generalizing found w with
  | nil => exact shows_pure (labels_ok rfl)
  | cons item rest ih =>
    rw [conclude, conclude]
    refine shows_bind_put (fun e => labels_error) ?_
    exact ih _

theorem shows_classify_labels (iteration : UInt32) (pieces : List (List Partition))
    (found : Classified) :
    Shows env.CanEmit w (classify env.observed ctx iteration pieces found)
      (classify env ctx iteration pieces found) fun r _ => Labels w.labels r := by
  induction pieces generalizing found w with
  | nil => exact shows_pure (labels_ok rfl)
  | cons batch rest ih =>
    rw [classify, classify]
    refine shows_bind_lift (shows_noting fun s => ⟨_, s, rfl⟩) ?_
    rintro expired es -
    cases expired with
    | true => exact shows_pure (labels_ok rfl)
    | false =>
      refine shows_bind_lift (shows_silent env.openBatch) ?_
      rintro _ es -
      refine shows_bind_lift (shows_mono (Oracle.shows_checkAll (env.desk ctx.deadline)
        ctx.settings.solver.timeoutMs iteration batch) (fun _ => QueryDesk.canEmit_of_desk)
          fun _ _ h => h) ?_
      rintro verdicts es -
      refine shows_bind_lift (shows_noting fun s => ⟨_, s, rfl⟩) ?_
      rintro closed es -
      rcases closed with (cause | ⟨⟩) | _
      · exact shows_pure (labels_ok rfl)
      · refine shows_bind (shows_conclude_labels env ctx iteration (batch.zip verdicts) found)
          (fun _ _ _ => labels_error) ?_
        intro found' w' es hlabels
        rw [← hlabels found' w' rfl]
        exact ih found'
      · exact shows_pure (labels_ok rfl)

theorem shows_check_labels (topic : String) (iteration : UInt32) (explored : Exploration)
    (htopic : ':' ∉ topic.toList) (hcheck : (topic, "classification") ∉ w.labels) :
    Shows env.CanEmit w (check env.observed ctx topic iteration explored)
      (check env ctx topic iteration explored)
      fun r _ => Labels (w.labels ++ [(topic, "classification")]) r := by
  refine shows_bind_startWatch fun now => ?_
  have hchecked : (w.start (topic ++ ":classification") now).labels =
      w.labels ++ [(topic, "classification")] :=
    Stopwatches.labels_start_task htopic (by decide) hcheck now
  have hstop (found : Classified) (w' : Stopwatches) (hw' : w'.labels = w.labels ++
      [(topic, "classification")]) : Shows env.CanEmit w'
        (stopWatch env.observed (topic ++ ":classification") >>= fun checking =>
          pure (found, checking))
        (stopWatch env (topic ++ ":classification") >>= fun checking => pure (found, checking))
        fun r _ => Labels (w.labels ++ [(topic, "classification")]) r := by
    refine shows_bind_stopWatch fun now => ?_
    exact shows_pure (labels_ok (by rw [Stopwatches.labels_stop, hw']))
  by_cases hexpired : explored.timedOut = true
  · rw [if_pos hexpired, if_pos hexpired]
    exact hstop _ _ hchecked
  · rw [if_neg hexpired, if_neg hexpired]
    refine shows_bind (shows_classify_labels env ctx iteration _ _)
      (fun _ _ _ => labels_error) ?_
    intro found w' es hlabels
    exact hstop found w' ((hlabels found w' rfl).trans hchecked)

/-- No stopwatch of the classification was started before. -/
theorem classification_fresh {topic : String} {labels : List (String × String)}
    (hfresh : (topic, "classification") ∉ labels) (ready : Bool) :
    (topic, "classification") ∉ labels ++ [(topic, "")] ++ (topic, "instrumentation") ::
      if ready then [(topic, "symbolic-execution")] else [] := by
  cases ready <;> simp [hfresh]

theorem shows_analyze_labels (iteration : UInt32)
    (hfresh : ∀ task, (iterationTopic iteration, task) ∉ w.labels) :
    Shows env.CanEmit w (analyze env.observed ctx iteration) (analyze env ctx iteration)
      fun r es => Labels (w.labels ++ es.tasks.map (iterationTopic iteration, ·)) r := by
  have htopic := colon_not_mem_iterationTopic iteration
  have hlabel := Stopwatch.topicAndTask_of_not_mem htopic
  refine shows_bind_startWatch fun now => ?_
  have hstarted : (w.start (iterationTopic iteration) now).labels =
      w.labels ++ [(iterationTopic iteration, "")] := by
    rw [Stopwatches.labels_start (hlabel ▸ hfresh ""), hlabel]
  have hother {task : String} (htask : task ≠ "") :
      (iterationTopic iteration, task) ∉ (w.start (iterationTopic iteration) now).labels := by
    rw [hstarted, List.mem_append, List.mem_singleton]
    rintro (h | h)
    · exact hfresh task h
    · exact htask (congrArg Prod.snd h)
  refine shows_bind_put (fun e => labels_error) ?_
  refine shows_bind ((shows_explore env ctx iteration _).and
    (shows_explore_labels env ctx _ iteration htopic (hother (by decide)) (hother (by decide))))
    (fun _ _ _ => labels_error) ?_
  rintro explored w' es ⟨⟨_, hvalue, hexplores⟩, hlabeled⟩
  cases hvalue
  have hexplored := (hlabeled _ _ rfl).trans (congrArg (· ++ _) hstarted)
  have hcheck : (iterationTopic iteration, "classification") ∉ w'.labels :=
    hexplored ▸ classification_fresh (hfresh _) _
  refine shows_bind ((shows_check env ctx iteration _ explored).and
    (shows_check_labels env ctx _ iteration explored htopic hcheck))
    (fun _ _ _ => labels_error) ?_
  rintro ⟨found, checking⟩ w'' es' ⟨hjudges, hlabeled'⟩
  have hchecked := hlabeled' _ _ rfl
  refine shows_bind_stopWatch fun now => ?_
  refine shows_bind_put (fun e => labels_error) ?_
  refine shows_bind_lift (shows_noting fun s => ⟨s, rfl⟩) ?_
  rintro result es'' rfl
  refine shows_bind_requireFile (fun _ _ => labels_error) ?_
  rintro rfl
  refine shows_pure (labels_ok ?_)
  refine Eq.trans ?_ (congrArg (fun tasks => w.labels ++ tasks.map (iterationTopic iteration, ·))
    (hjudges.tasks_eq _ _ _ _).symm)
  rw [Stopwatches.labels_stop, hchecked, hexplored, hexplores.tasks_eq]
  cases es.any Event.isReady <;> simp [iterationTopic]

theorem shows_refine_labels (iteration : UInt32) (refined : List String) (inconclusive : NameSet)
    (hfresh : (iterationTopic iteration, "refinement") ∉ w.labels) :
    Shows env.CanEmit w (refine env.observed ctx iteration refined inconclusive)
      (refine env ctx iteration refined inconclusive)
      fun r _ => Labels (w.labels ++ [(iterationTopic iteration, "refinement")]) r := by
  refine shows_bind_startWatch fun now => ?_
  have hstarted : (w.start (iterationTopic iteration ++ ":refinement") now).labels =
      w.labels ++ [(iterationTopic iteration, "refinement")] :=
    Stopwatches.labels_start_task (colon_not_mem_iterationTopic iteration) (by decide) hfresh now
  refine shows_bind_lift (shows_noting fun s => ⟨s, rfl⟩) ?_
  rintro units es rfl
  cases ctx.settings.refinement.heuristic.select? units (.ofList refined) inconclusive with
  | none =>
    refine shows_bind_stopWatch fun now => ?_
    exact shows_pure (labels_ok ((Stopwatches.labels_stop ..).trans hstarted))
  | some unit =>
    refine shows_bind_lift (shows_noting fun s => ⟨_, s, rfl⟩) ?_
    rintro expanded es rfl
    refine shows_bind_stopWatch fun now => ?_
    rcases expanded with (e | _) | _ <;>
      exact shows_pure (labels_ok ((Stopwatches.labels_stop ..).trans hstarted))

/-- The stopwatches behind some iterations, if so many were there before. Their labels can be read
off the events, up to those behind the last iteration. -/
def LabelsIterations {α : Type} (before : Nat) (labels : List (String × String))
    (r : Except Failure (α × Stopwatches)) (es : History) : Prop :=
  ∀ tail : History, (∀ e ∈ tail, e.isOutside) →
    (∀ a, value r = .ok a → Idle (es ++ tail).cut.1) ∧
      Labels (labels ++ labelsFrom (before + 1) (es ++ tail).iterations) r

section

variable {α : Type} {a : α} {before : Nat} {iteration : UInt32} {labels : List (String × String)}
  {report : IterationReport} {es es' rest : History} {refined : List String}
  {inconclusive : NameSet}

theorem labelsIterations_error {e : Failure} :
    LabelsIterations before labels (.error e : Except Failure (α × Stopwatches)) es :=
  fun _ _ => ⟨nofun, labels_error⟩

variable {ctx}

/-- The last iteration, behind which nothing was refined. -/
theorem Analyzes.labelsIterations (analyzes : Analyzes ctx iteration es (.ok report))
    (hiteration : iteration = .ofNat (before + 1))
    (hlabels : w.labels = labels ++ es.tasks.map (iterationTopic iteration, ·)) :
    LabelsIterations before labels (.ok (a, w)) es := by
  intro tail htail
  obtain ⟨hcut, hnone⟩ := idle_cut_of_isOutside htail
  refine ⟨fun _ _ => (analyzes.labelsFrom_eq hiteration tail).2, labels_ok ?_⟩
  rw [hlabels, analyzes.labelsFrom_last hiteration hcut hnone]

/-- No stopwatch of the refinement was started before. -/
theorem Analyzes.refinement_fresh (analyzes : Analyzes ctx iteration es (.ok report))
    (hfresh : (iterationTopic iteration, "refinement") ∉ labels) :
    (iterationTopic iteration, "refinement") ∉
      labels ++ es.tasks.map (iterationTopic iteration, ·) := by
  rw [List.mem_append, List.mem_map]
  rintro (h | ⟨task, htask, h⟩)
  · exact hfresh h
  · have hsame : task = "refinement" := congrArg Prod.snd h
    exact refinement_not_mem_tasks analyzes.any_isSummarized (hsame ▸ htask)

/-- An iteration that is refined, and those that follow. -/
theorem Analyzes.labelsIterations_refined (analyzes : Analyzes ctx iteration es (.ok report))
    (hiteration : iteration = .ofNat (before + 1)) {r' : Except StopReason String}
    (refines : Refines ctx refined inconclusive es' r')
    {r : Except Failure (α × Stopwatches)}
    (hrest : LabelsIterations (before + 1)
      (labels ++ (es.tasks ++ ["refinement"]).map (iterationTopic iteration, ·)) r rest) :
    LabelsIterations before labels r (es ++ (es' ++ rest)) := by
  intro tail htail
  obtain ⟨hcut, hlabels⟩ := hrest tail htail
  rw [List.append_assoc, List.append_assoc]
  refine ⟨fun _ _ => (analyzes.labelsFrom_eq hiteration _).2, ?_⟩
  rintro a w rfl
  rw [analyzes.labelsFrom_refined hiteration refines (hcut _ rfl), ← List.append_assoc]
  exact hlabels a w rfl

/-- The last iteration, behind which a candidate was looked for in vain. -/
theorem Analyzes.labelsIterations_unrefined (analyzes : Analyzes ctx iteration es (.ok report))
    (hiteration : iteration = .ofNat (before + 1)) {r' : Except StopReason String}
    (refines : Refines ctx refined inconclusive es' r')
    (hlabels : w.labels = labels ++
      (es.tasks ++ ["refinement"]).map (iterationTopic iteration, ·)) :
    LabelsIterations before labels (.ok (a, w)) (es ++ es') := by
  have hnothing : LabelsIterations (before + 1)
      (labels ++ (es.tasks ++ ["refinement"]).map (iterationTopic iteration, ·))
      (.ok (a, w)) [] := by
    intro tail htail
    obtain ⟨hcut, hnone⟩ := idle_cut_of_isOutside htail
    rw [List.nil_append, hnone]
    exact ⟨fun _ _ => hcut, labels_ok (hlabels.trans (List.append_nil _).symm)⟩
  simpa using analyzes.labelsIterations_refined hiteration refines hnothing

end

/-- The labels of the stopwatches of iterations. -/
theorem shows_iterate_labels (remaining : Nat) (progress : Progress)
    (hroom : progress.iterations.length + remaining < UInt32.size)
    (hnew : NewFrom progress.iterations.length w.labels) :
    Shows env.CanEmit w (iterate env.observed ctx remaining progress)
      (iterate env ctx remaining progress)
      (LabelsIterations progress.iterations.length w.labels) := by
  induction remaining generalizing progress w with
  | zero => exact shows_throw labelsIterations_error
  | succ remaining ih =>
    rw [iterate, iterate]
    have hlt : progress.iterations.length + 1 < UInt32.size := by omega
    have hnext (task : String) : (iterationTopic progress.next, task) ∉ w.labels :=
      hnew _ task (Nat.lt_succ_self _) hlt
    refine shows_bind ((shows_analyze env ctx _).and (shows_analyze_labels env ctx _ hnext))
      (fun _ _ _ => labelsIterations_error) ?_
    rintro report w' es ⟨hanalyzes, hlabeled⟩
    have hanalyzed := hlabeled _ _ rfl
    have hlast {a : Progress × StopReason} := hanalyzes.labelsIterations (a := a) rfl hanalyzed
    cases report.timedOut with
    | true => exact shows_pure ((List.append_nil es).symm ▸ hlast)
    | false =>
      cases stopAfter? report.result ctx.settings.run.tool.canIterate with
      | some reason => exact shows_pure ((List.append_nil es).symm ▸ hlast)
      | none =>
        have hfresh := hanalyzed ▸ hanalyzes.refinement_fresh (hnext _)
        refine shows_bind ((shows_refine env ctx progress.next _ _).and
          (shows_refine_labels env ctx progress.next _ _ hfresh)) ?_ ?_
        · rintro e es' ⟨⟨_, h, -⟩, -⟩
          cases h
        rintro refined w'' es' ⟨⟨_, h, hrefines⟩, hlabeled⟩
        cases h
        have hrefined : w''.labels = w.labels ++
            (es.tasks ++ ["refinement"]).map (iterationTopic progress.next, ·) := by
          rw [hlabeled _ _ rfl, hanalyzed, List.append_assoc, List.map_append]
          rfl
        cases refined with
        | error reason =>
          refine shows_pure ?_
          rw [List.append_nil]
          exact hanalyzes.labelsIterations_unrefined rfl hrefines hrefined
        | ok unit =>
          have hlength : ((progress.analyzed report).expanded unit).iterations.length =
              progress.iterations.length + 1 := List.length_append
          refine shows_mono (ih _ ?_ ?_) (fun _ h => h) fun r es'' hiterated => ?_
          · omega
          · rw [hrefined, hlength]
            exact hnew.append hlt _
          · rw [hrefined, hlength] at hiterated
            exact hanalyzes.labelsIterations_refined rfl hrefines hiterated

/-! ## The stopwatches of a run -/

theorem shows_putAll_labels (rows : List StoreWrite) :
    Shows env.CanEmit w (putAll env.observed rows) (putAll env rows)
      fun r es => ∀ a w', r = .ok (a, w') → w' = w ∧ es.writes = rows := by
  induction rows with
  | nil => exact shows_pure (by rintro a w' ⟨⟩; exact ⟨rfl, rfl⟩)
  | cons row rest ih =>
    rw [putAll, putAll]
    refine shows_bind_put (by rintro e a w' ⟨⟩) ?_
    refine shows_mono ih (fun _ h => h) ?_
    intro r es h a w' hr
    obtain ⟨hw', hes⟩ := h a w' hr
    exact ⟨hw', congrArg (row :: ·) hes⟩

/-- The stopwatches are those for which times were written. -/
theorem shows_finish_labels (run : RunRecord) (progress : Progress) (reason : StopReason)
    (hnew : ("run", "finalization") ∉ w.labels) :
    Shows env.CanEmit w (finish env.observed ctx run progress reason)
      (finish env ctx run progress reason) fun r es => ∀ outcome w', r = .ok (outcome, w') →
        w'.labels = w.labels ++ [("run", "finalization")] ∧ (∀ v ∈ w', v.isRunning = false) ∧
        ∃ now, es.writes = .run outcome.run ::
          (w'.records ctx.benchmark ctx.tool now).map .time := by
  refine shows_bind_startWatch fun now => ?_
  have hlabel : Stopwatch.topicAndTask "run:finalization" = ("run", "finalization") := by decide
  have hstarted : (w.start "run:finalization" now).labels = w.labels ++ [("run", "finalization")] :=
    hlabel ▸ Stopwatches.labels_start (hlabel.symm ▸ hnew) now
  refine shows_bind_stopWatch fun now => ?_
  refine shows_bind_stopWatch fun now => ?_
  refine shows_bind_put (by rintro e outcome w' ⟨⟩) ?_
  refine shows_bind_lift (shows_silent env.now) ?_
  rintro now es rfl
  refine shows_bind (shows_modify _) (by rintro e es ⟨-, h⟩; cases h) ?_
  rintro _ w₁ es ⟨rfl, h⟩
  cases h
  refine shows_bind shows_get (by rintro e es ⟨-, h⟩; cases h) ?_
  rintro _ w₁ es ⟨rfl, h⟩
  cases h
  refine shows_bind (shows_putAll_labels env _) (by rintro e es - outcome w' ⟨⟩) ?_
  intro _ w' es hputs
  refine shows_pure ?_
  rintro outcome w'' ⟨⟩
  obtain ⟨rfl, hwrites⟩ := hputs _ _ rfl
  refine ⟨?_, fun v hv => Stopwatches.isRunning_of_mem_stopAll hv, now, ?_⟩
  · simp [hstarted]
  · rw [List.append_nil]
    exact congrArg (_ :: ·) hwrites

theorem shows_openRun_labels :
    Shows env.CanEmit w (openRun env.observed ctx) (openRun env ctx) fun r _ =>
      Labels w.labels r := by
  refine shows_bind_put (fun e => labels_error) ?_
  refine shows_bind_lift (shows_noting fun s => ⟨s, rfl⟩) ?_
  rintro result es -
  refine shows_bind_requireFile (fun _ _ => labels_error) ?_
  rintro rfl
  refine shows_bind_lift (shows_silent env.today) ?_
  rintro today es -
  refine shows_bind_put (fun e => labels_error) ?_
  exact shows_pure (labels_ok rfl)

/-- When a run begins it has two stopwatches. -/
theorem labels_started (now now' : Duration) :
    ((Stopwatches.start [] "run" now).start "run:initialization" now').labels =
      [("run", ""), ("run", "initialization")] := by
  have hrun : Stopwatch.topicAndTask "run" = ("run", "") := by decide
  have hopening : Stopwatch.topicAndTask "run:initialization" = ("run", "initialization") := by
    decide
  have hfirst : (Stopwatches.start [] "run" now).labels = [("run", "")] := by
    rw [Stopwatches.labels_start (by simp [Stopwatches.labels]), hrun]
    rfl
  rw [Stopwatches.labels_start (by rw [hfirst, hopening]; decide), hfirst, hopening]
  rfl

theorem newFrom_started : NewFrom 0 [("run", ""), ("run", "initialization")] := by
  intro i task _ _ hmem
  have hrun : iterationTopic (.ofNat i) = "run" := by
    simp only [List.mem_cons, List.not_mem_nil, or_false] at hmem
    rcases hmem with h | h <;> exact congrArg Prod.fst h
  exact iterationTopic_ne_run _ hrun

/-- All stopwatches of a run were started but the last one, and no times were written so far. -/
structure Unfinished (w : Stopwatches) (before : History) : Prop where
  labels : ∀ tail : History, (∀ e ∈ tail, e.isOutside) → w.labels =
    [("run", ""), ("run", "initialization")] ++ labelsFrom 1 (before ++ tail).iterations
  times : before.writes.filterMap StoreWrite.time? = []

theorem Unfinished.finalization_not_mem {before : History} (h : Unfinished w before) :
    ("run", "finalization") ∉ w.labels := by
  rw [h.labels [] (by simp), List.mem_append]
  rintro (h | h)
  · revert h
    decide
  · obtain ⟨i, hi⟩ := topic_of_mem_labelsFrom h
    exact iterationTopic_ne_run i hi.symm

/-- The stopwatches of a run that ended well have the labels that are read off its history. All of
them were stopped, and their times were written. -/
def Timed (h : History) (w : Stopwatches) : Prop :=
  w.labels = h.labels ∧ (∀ v ∈ w, v.isRunning = false) ∧
    ∃ now, h.writes.filterMap StoreWrite.time? = w.records ctx.benchmark ctx.tool now

theorem shows_finish_timed {before : History} (unfinished : Unfinished w before) (run : RunRecord)
    (progress : Progress) (reason : StopReason) :
    Shows env.CanEmit w (finish env.observed ctx run progress reason)
      (finish env ctx run progress reason) fun r es => ∀ outcome w', r = .ok (outcome, w') →
        Timed ctx (before ++ es) w' := by
  refine shows_mono ((shows_finish env ctx _ _ _).and
    (shows_finish_labels env ctx _ _ _ unfinished.finalization_not_mem)) (fun _ h => h) ?_
  rintro r es ⟨hfinishes, hfinished⟩ outcome w' rfl
  obtain ⟨hlabels, hstopped, now, hwrites⟩ := hfinished _ _ rfl
  refine ⟨?_, hstopped, now, ?_⟩
  · rw [hlabels, unfinished.labels es hfinishes.isOutside]
    rfl
  · rw [writes_append, List.filterMap_append, unfinished.times, hwrites, filterMap_time?]
    rfl

theorem shows_analyzeRequest_labels (request : RunRequest) :
    Shows env.CanEmit [] (analyzeRequest env.observed ctx request) (analyzeRequest env ctx request)
      fun r es => ∀ outcome w', r = .ok (outcome, w') → Timed ctx es w' := by
  refine shows_bind_startWatch fun now => ?_
  refine shows_bind_startWatch fun now' => ?_
  refine shows_bind ((shows_openRun env ctx).and (shows_openRun_labels env ctx)) ?_ ?_
  · rintro e es - outcome w' ⟨⟩
  rintro run w₁ es ⟨hopens, hlabeled⟩
  refine shows_bind_lift (shows_missingInput? env request) ?_
  intro missing? es' hlooks
  refine shows_bind_stopWatch fun now'' => ?_
  have hopened : (w₁.stop "run:initialization" now'').labels =
      [("run", ""), ("run", "initialization")] := by
    rw [Stopwatches.labels_stop, hlabeled _ _ rfl, labels_started]
  have hbefore : ∀ e ∈ es ++ es', e.isOutside :=
    List.forall_mem_append.mpr ⟨hopens.isOutside, hlooks.isOutside⟩
  have htimes : (es ++ es').writes.filterMap StoreWrite.time? = [] := by
    rw [writes_append, hopens.writes_eq.1, hlooks.writes_eq]
    rfl
  cases missing? with
  | some input =>
    have unfinished : Unfinished (w₁.stop "run:initialization" now'') (es ++ es') := by
      refine ⟨fun tail htail => ?_, htimes⟩
      rw [hopened, iterations_of_isOutside hbefore, (idle_cut_of_isOutside htail).2]
      rfl
    refine shows_mono (shows_finish_timed env ctx unfinished _ _ _) (fun _ h => h) ?_
    intro r es'' hfinished
    rwa [List.append_assoc] at hfinished
  | none =>
    refine shows_bind ((shows_iterate env ctx _ _).and (shows_iterate_labels env ctx
      (UInt32.size - 1) {} (by decide) (hopened ▸ newFrom_started))) ?_ ?_
    · rintro e es'' - outcome w' ⟨⟩
    rintro ⟨progress, reason⟩ w₂ es'' ⟨hiterates, hiterated⟩
    have unfinished : Unfinished w₂ (es ++ es' ++ es'') := by
      refine ⟨fun tail htail => ?_, ?_⟩
      · rw [(hiterated tail htail).2 _ _ rfl, hopened, List.append_assoc,
          iterations_of_isOutside hbefore]
        rfl
      · rw [writes_append, List.filterMap_append, htimes, hiterates.times_eq_nil]
        rfl
    refine shows_mono (shows_finish_timed env ctx unfinished _ _ _) (fun _ h => h) ?_
    intro r es₄ hfinished
    rwa [List.append_assoc, List.append_assoc] at hfinished

end

end Run

end Regression
