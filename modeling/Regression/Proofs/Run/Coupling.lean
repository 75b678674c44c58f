import Regression.Proofs.Coupling

/-!
# Coupled runs

In environments that are alike a run does the same, whatever their clocks show: it makes the same
writes, and it ends with the same outcome or with the same failure, times left aside.

* `Environment.Akin.analyzeRequest`: whole runs, which may have batches of different sizes, if they
  classify partitions alike.
* `Environment.Alike.analyzeRequest`: runs with batches of one size.
-/

namespace Regression

/-! ## Times aside -/

def Exploration.untimed (explored : Exploration) : Exploration :=
  { explored with timings := explored.timings.map fun t => (t.1, .zero) }

def IterationReport.untimed (report : IterationReport) : IterationReport :=
  { report with record := report.record.untimed }

def Progress.untimed (progress : Progress) : Progress :=
  { progress with iterations := progress.iterations.map IterationRecord.untimed }

def RunOutcome.untimed (o : RunOutcome) : RunOutcome :=
  { o with run := o.run.untimed, iterations := o.iterations.map IterationRecord.untimed }

theorem Verdict.untimed_record (v : Verdict) (benchmark tool : String) (iteration : UInt32) :
    (v.record benchmark tool iteration).untimed =
      (v.untimed.record benchmark tool iteration).untimed := by
  simp only [record, PartitionRecord.untimed, Option.map_some]
  rfl

/-- A context in which a run is due at another time. -/
def RunContext.due (ctx : RunContext) (d : Duration) : RunContext :=
  { ctx with watchdog := { ctx.watchdog with deadline := d } }

/-- Settings with batches of another size. -/
def Settings.batched (settings : Settings) (size : UInt64) : Settings :=
  { settings with solver := { settings.solver with parallelism := size } }

/-- A context with batches of another size, in which a run is due at another time. -/
def RunContext.batched (ctx : RunContext) (size : UInt64) (d : Duration) : RunContext :=
  { ctx.due d with settings := ctx.settings.batched size }

theorem Progress.next_untimed (progress : Progress) : progress.untimed.next = progress.next := by
  rw [next, next, untimed, List.length_map]

namespace Run

theorem untimed_reportOf {explored explored' : Exploration}
    (h : explored.untimed = explored'.untimed) (ctx : RunContext) (size : UInt64) (d : Duration)
    (iteration : UInt32) (found : Classified) (elapsed elapsed' : Duration) :
    (reportOf ctx iteration explored found elapsed).untimed =
      (reportOf (ctx.batched size d) iteration explored' found elapsed').untimed := by
  have herror : explored.error = explored'.error := (congrArg Exploration.error h :)
  have hpartitions : explored.partitions = explored'.partitions :=
    (congrArg Exploration.partitions h :)
  have hresult : resultOfIteration explored found = resultOfIteration explored' found := by
    rw [resultOfIteration, resultOfIteration, herror]
  have herrors (result : Classification) :
      errorTexts ctx explored found result =
        errorTexts (ctx.batched size d) explored' found result := by
    rw [errorTexts, errorTexts, herror]
    rfl
  simp only [reportOf, IterationReport.untimed, IterationRecord.untimed, Option.map_some, hresult,
    herrors, hpartitions]
  rfl

theorem untimed_completed {run run' : RunRecord} (h : run.untimed = run'.untimed)
    {iterations iterations' : List IterationRecord}
    (hiterations : iterations.map IterationRecord.untimed =
      iterations'.map IterationRecord.untimed) (reason : StopReason) (elapsed elapsed' : Duration) :
    (completed run iterations reason elapsed).untimed =
      (completed run' iterations' reason elapsed').untimed := by
  have hlength : iterations.length = iterations'.length := by
    simpa using congrArg List.length hiterations
  have hany (flag : IterationRecord → Option Bool) (hflag : ∀ r, flag r.untimed = flag r) :
      iterations.any (flag · == some true) = iterations'.any (flag · == some true) := by
    have hmap := congrArg (List.any · (flag · == some true)) hiterations
    simpa [List.any_map, Function.comp_def, hflag] using hmap
  cases run
  cases run'
  simp only [RunRecord.untimed, RunRecord.mk.injEq] at h
  simp only [completed, RunRecord.untimed, Option.map_some, hlength,
    hany (·.hasTimedOut) fun _ => rfl, hany (·.isDepthLimited) fun _ => rfl,
    hany (·.hasUif) fun _ => rfl, h]

theorem untimed_concluded {run run' : RunRecord} (h : run.untimed = run'.untimed)
    {progress progress' : Progress} (hprogress : progress.untimed = progress'.untimed)
    (ctx : RunContext) (size : UInt64) (d : Duration) (reason : StopReason) :
    (concluded ctx run progress reason).untimed =
      (concluded (ctx.batched size d) run' progress' reason).untimed := by
  have hrecords : progress.iterations.map IterationRecord.untimed =
      progress'.iterations.map IterationRecord.untimed := congrArg Progress.iterations hprogress
  have hresults : progress.iterations.filterMap (·.result) =
      progress'.iterations.filterMap (·.result) := by
    have hmap := congrArg (List.filterMap (·.result)) hrecords
    rwa [List.filterMap_map, List.filterMap_map] at hmap
  have hresult : resultOf reason progress.iterations = resultOf reason progress'.iterations := by
    cases reason <;> simp only [resultOf, hresults]
  have hlast : progress.iterations.getLast?.bind (·.errors) =
      progress'.iterations.getLast?.bind (·.errors) := by
    have hmap := congrArg (fun records => records.getLast?.bind (·.errors)) hrecords
    rwa [List.getLast?_map, List.getLast?_map, Option.bind_map, Option.bind_map] at hmap
  have herrors : errorsOf ctx reason progress.iterations =
      errorsOf (ctx.batched size d) reason progress'.iterations := by
    cases reason with
    | timedOut => simp only [errorsOf, hlast]; rfl
    | _ => simp only [errorsOf, hlast]
  cases run
  cases run'
  simp only [RunRecord.untimed, RunRecord.mk.injEq] at h
  simp only [concluded, RunRecord.untimed, hresult, herrors, h]

end Run

/-! ## The steps of a run -/

/-- Whatever was explored, the partitions are classified alike, batch after batch. -/
def Environment.ClassifiesAlike {m n : Type → Type} [Monad m] [Monad n] (C : Coupling m n)
    (ctx : RunContext) (size : UInt64) (d : Duration) (env : Environment m)
    (env' : Environment n) : Prop :=
  ∀ iteration partitions, C.steps.Rel Eq
    (Run.classify env ctx iteration
      (batches (ctx.settings.solver.parallelism.toNat - 1) partitions) {})
    (Run.classify env' (ctx.batched size d) iteration (batches (size.toNat - 1) partitions) {})

namespace Environment.Akin

open Run

variable {m n : Type → Type} [Monad m] [Monad n] [LawfulMonad m] [LawfulMonad n]
  {C : Coupling m n} {ctx : RunContext} {size : UInt64} {d : Duration}
  {env : Environment m} {env' : Environment n}

theorem startWatch (h : env.Akin C ctx.deadline d env') (name : String) :
    C.steps.Rel (fun _ _ => True) (startWatch env name) (startWatch env' name) := by
  refine C.steps.bind (C.steps_lift h.now) ?_
  intro now now' _
  refine C.steps_modify fun w w' hw => ?_
  rw [Stopwatches.untimed_start, Stopwatches.untimed_start, hw]

theorem stopWatch (h : env.Akin C ctx.deadline d env') (name : String) :
    C.steps.Rel (fun _ _ => True) (stopWatch env name) (stopWatch env' name) := by
  refine C.steps.bind (C.steps_lift h.now) ?_
  intro now now' _ w w' hw
  refine C.pure (.ok trivial ?_)
  rw [Stopwatches.untimed_stop, Stopwatches.untimed_stop, hw]

theorem put (h : env.Akin C ctx.deadline d env') {row row' : StoreWrite}
    (same : row.untimed = row'.untimed) :
    C.steps.Rel (fun _ _ => True) (put env row) (put env' row') := by
  refine C.steps.bind (C.steps_lift (h.write same)) ?_
  rintro (e | ⟨⟩) _ rfl
  · exact C.steps_throw _
  · exact C.steps.pure trivial

theorem putAll (h : env.Akin C ctx.deadline d env') {rows rows' : List StoreWrite}
    (same : rows.map StoreWrite.untimed = rows'.map StoreWrite.untimed) :
    C.steps.Rel (fun _ _ => True) (putAll env rows) (putAll env' rows') := by
  induction rows generalizing rows' with
  | nil =>
    cases rows' with
    | nil => exact C.steps.pure trivial
    | cons => cases same
  | cons row rows ih =>
    cases rows' with
    | nil => cases same
    | cons row' rows' =>
      obtain ⟨hrow, hrows⟩ := List.cons.inj same
      rw [Run.putAll, Run.putAll]
      refine C.steps.bind (h.put hrow) ?_
      intro _ _ _
      exact ih hrows

omit [LawfulMonad m] [LawfulMonad n] in
theorem pull (h : env.Akin C ctx.deadline d env') (iteration : UInt32) (last : Option UInt32) :
    C.Rel Eq (pull env ctx iteration last) (pull env' (ctx.batched size d) iteration last) := by
  induction hroom : room last using Nat.strongRecOn generalizing last with
  | ind k ih =>
    rw [Run.pull, Run.pull]
    refine C.bind h.next ?_
    rintro ((e | (_ | p)) | _) _ rfl
    · exact C.pure rfl
    · exact C.pure rfl
    · by_cases order : follows p.index last
      · simp only [order, dite_true]
        refine C.bind (h.write rfl) ?_
        rintro (e | ⟨⟩) _ rfl
        · exact C.pure rfl
        · refine C.bind (ih _ (hroom ▸ room_lt order) _ rfl) ?_
          rintro ⟨rest, ending⟩ _ rfl
          exact C.pure rfl
      · simp only [order]
        exact C.pure rfl
    · exact C.pure rfl

omit [LawfulMonad m] [LawfulMonad n] in
theorem deliver (h : env.Akin C ctx.deadline d env') (iteration : UInt32) :
    C.Rel Eq (deliver env ctx iteration) (deliver env' (ctx.batched size d) iteration) := by
  refine C.bind (h.start iteration) ?_
  rintro ((e | ⟨⟩) | _) _ rfl
  · exact C.pure rfl
  · exact h.pull iteration none
  · exact C.pure rfl

theorem explore (h : env.Akin C ctx.deadline d env') (topic : String) (iteration : UInt32) :
    C.steps.Rel (fun x x' => x.untimed = x'.untimed) (explore env ctx topic iteration)
      (explore env' (ctx.batched size d) topic iteration) := by
  refine C.steps.bind (h.startWatch _) fun _ _ _ => ?_
  refine C.steps.bind (C.steps_lift (h.prepare iteration)) ?_
  rintro prepared _ rfl
  refine C.steps.bind (h.stopWatch _) fun preparing preparing' _ => ?_
  rcases prepared with (e | ⟨⟩) | _
  · exact C.steps.pure rfl
  · refine C.steps.bind (h.startWatch _) fun _ _ _ => ?_
    refine C.steps.bind (C.steps_lift (h.deliver iteration)) ?_
    rintro ⟨partitions, ending⟩ _ rfl
    refine C.steps.bind (h.stopWatch _) fun exploring exploring' _ => ?_
    exact C.steps.pure (by cases ending <;> rfl)
  · exact C.steps.pure rfl

/-- What is stored of two verdicts, and what is found, is the same if the verdicts are. -/
theorem conclude (h : env.Akin C ctx.deadline d env') (iteration : UInt32)
    (batch : List Partition) {verdicts verdicts' : List Verdict}
    (same : verdicts.map Verdict.untimed = verdicts'.map Verdict.untimed) (found : Classified) :
    C.steps.Rel Eq (conclude env ctx iteration (batch.zip verdicts) found)
      (conclude env' (ctx.batched size d) iteration (batch.zip verdicts') found) := by
  induction batch generalizing verdicts verdicts' found with
  | nil => exact C.steps.pure rfl
  | cons p batch ih =>
    cases verdicts with
    | nil =>
      cases verdicts' with
      | nil => exact C.steps.pure rfl
      | cons => cases same
    | cons v verdicts =>
      cases verdicts' with
      | nil => cases same
      | cons v' verdicts' =>
        obtain ⟨hv, hverdicts⟩ := List.cons.inj same
        have hrow : (v.record ctx.benchmark ctx.tool iteration).untimed =
            (v'.record ctx.benchmark ctx.tool iteration).untimed := by
          rw [v.untimed_record, hv, ← v'.untimed_record]
        have hfound (v : Verdict) : found.add p v = found.add p v.untimed := rfl
        rw [List.zip_cons_cons, List.zip_cons_cons, Run.conclude, Run.conclude]
        refine C.steps.bind (h.put (congrArg StoreWrite.partition hrow)) fun _ _ _ => ?_
        rw [hfound v, hv, ← hfound v']
        exact ih hverdicts _

theorem check (h : env.Akin C ctx.deadline d env')
    (classifies : env.ClassifiesAlike C ctx size d env') (topic : String) (iteration : UInt32)
    {explored explored' : Exploration} (same : explored.untimed = explored'.untimed) :
    C.steps.Rel (fun r r' => r.1 = r'.1) (check env ctx topic iteration explored)
      (check env' (ctx.batched size d) topic iteration explored') := by
  have htime : explored.timedOut = explored'.timedOut := (congrArg Exploration.timedOut same :)
  have hpartitions : explored.partitions = explored'.partitions :=
    (congrArg Exploration.partitions same :)
  unfold Run.check
  rw [htime, hpartitions]
  refine C.steps.bind (h.startWatch _) fun _ _ _ => ?_
  have hstop (found : Classified) : C.steps.Rel (fun r r' => r.1 = r'.1)
      (do let checking ← Run.stopWatch env (topic ++ ":classification"); pure (found, checking))
      (do let checking ← Run.stopWatch env' (topic ++ ":classification"); pure (found, checking)) :=
    C.steps.bind (h.stopWatch _) fun _ _ _ => C.steps.pure rfl
  split
  · refine C.steps.bind (C.steps.pure (Q := Eq) rfl) ?_
    rintro found _ rfl
    exact hstop found
  · refine C.steps.bind (classifies iteration _) ?_
    rintro found _ rfl
    exact hstop found

omit [LawfulMonad m] [LawfulMonad n] in
theorem requireFile [LawfulMonad m] [LawfulMonad n] (result : Except FileError Unit) :
    C.steps.Rel (fun _ _ => True) (requireFile result : RunM m Unit)
      (requireFile result : RunM n Unit) := by
  cases result with
  | error e => exact C.steps_throw _
  | ok => exact C.steps.pure trivial

theorem analyze (h : env.Akin C ctx.deadline d env')
    (classifies : env.ClassifiesAlike C ctx size d env') (iteration : UInt32) :
    C.steps.Rel (fun r r' => r.untimed = r'.untimed) (analyze env ctx iteration)
      (analyze env' (ctx.batched size d) iteration) := by
  refine C.steps.bind (h.startWatch _) fun _ _ _ => ?_
  refine C.steps.bind (h.put rfl) fun _ _ _ => ?_
  refine C.steps.bind (h.explore _ iteration) fun explored explored' hexplored => ?_
  refine C.steps.bind (h.check classifies _ iteration hexplored) ?_
  rintro ⟨found, checking⟩ ⟨_, checking'⟩ hfound
  cases hfound
  refine C.steps.bind (h.stopWatch _) fun elapsed elapsed' _ => ?_
  have hreport := untimed_reportOf hexplored ctx size d iteration found elapsed elapsed'
  have hrecord := congrArg (StoreWrite.iteration ·.record) hreport
  refine C.steps.bind (h.put hrecord) fun _ _ _ => ?_
  refine C.steps.bind (C.steps_lift (h.appendResults _ _ _)) ?_
  rintro result _ rfl
  exact C.steps.bind (requireFile result) fun _ _ _ => C.steps.pure hreport

theorem refine (h : env.Akin C ctx.deadline d env') (iteration : UInt32) (refined : List String)
    (inconclusive : NameSet) :
    C.steps.Rel Eq (refine env ctx iteration refined inconclusive)
      (refine env' (ctx.batched size d) iteration refined inconclusive) := by
  refine C.steps.bind (h.startWatch _) fun _ _ _ => ?_
  refine C.steps.bind (C.steps_lift h.summary) ?_
  rintro units _ rfl
  have hselect : (ctx.batched size d).settings.refinement.heuristic.select? units (.ofList refined)
      inconclusive =
        ctx.settings.refinement.heuristic.select? units (.ofList refined) inconclusive := rfl
  rw [hselect]
  cases ctx.settings.refinement.heuristic.select? units (.ofList refined) inconclusive with
  | none => exact C.steps.bind (h.stopWatch _) fun _ _ _ => C.steps.pure rfl
  | some unit =>
    refine C.steps.bind (C.steps_lift (h.expand unit)) ?_
    rintro expanded _ rfl
    refine C.steps.bind (h.stopWatch _) fun _ _ _ => ?_
    rcases expanded with (e | _) | _
    · exact C.steps.pure rfl
    · exact C.steps.pure rfl
    · exact C.steps.pure rfl

theorem iterate (h : env.Akin C ctx.deadline d env')
    (classifies : env.ClassifiesAlike C ctx size d env') (remaining : Nat)
    {progress progress' : Progress} (same : progress.untimed = progress'.untimed) :
    C.steps.Rel (fun r r' => r.1.untimed = r'.1.untimed ∧ r.2 = r'.2)
      (iterate env ctx remaining progress)
      (iterate env' (ctx.batched size d) remaining progress') := by
  induction remaining generalizing progress progress' with
  | zero => exact C.steps_throw _
  | succ remaining ih =>
    have hnext : progress.next = progress'.next := by
      rw [← progress.next_untimed, same, progress'.next_untimed]
    have hrefined : progress.refined = progress'.refined := (congrArg Progress.refined same :)
    rw [Run.iterate, Run.iterate, hnext]
    refine C.steps.bind (h.analyze classifies _) fun report report' hreport => ?_
    have hresult : report.result = report'.result := (congrArg IterationReport.result hreport :)
    have htime : report.timedOut = report'.timedOut := (congrArg IterationReport.timedOut hreport :)
    have hinconclusive : report.inconclusive = report'.inconclusive :=
      (congrArg IterationReport.inconclusive hreport :)
    have hprogress : (progress.analyzed report).untimed = (progress'.analyzed report').untimed := by
      have hrecords : progress.iterations.map IterationRecord.untimed =
          progress'.iterations.map IterationRecord.untimed := congrArg Progress.iterations same
      have hrecord : report.record.untimed = report'.record.untimed :=
        congrArg IterationReport.record hreport
      simp [Progress.untimed, Progress.analyzed, hrecords, hrecord, hrefined]
    have hanalyzed : (progress.analyzed report).refined = (progress'.analyzed report').refined :=
      hrefined
    dsimp only
    rw [hresult, htime, hinconclusive, hanalyzed]
    split
    · exact C.steps.pure ⟨hprogress, rfl⟩
    · have hstop : stopAfter? report'.result (ctx.batched size d).settings.run.tool.canIterate =
          stopAfter? report'.result ctx.settings.run.tool.canIterate := rfl
      rw [hstop]
      cases stopAfter? report'.result ctx.settings.run.tool.canIterate with
      | some reason => exact C.steps.pure ⟨hprogress, rfl⟩
      | none =>
        refine C.steps.bind (h.refine _ _ _) ?_
        rintro (reason | unit) _ rfl
        · exact C.steps.pure ⟨hprogress, rfl⟩
        · refine ih ?_
          exact congrArg (·.expanded unit) hprogress

theorem finish (h : env.Akin C ctx.deadline d env') {run run' : RunRecord}
    (same : run.untimed = run'.untimed) {progress progress' : Progress}
    (hprogress : progress.untimed = progress'.untimed) (reason : StopReason) :
    C.steps.Rel (fun o o' => o.untimed = o'.untimed) (finish env ctx run progress reason)
      (finish env' (ctx.batched size d) run' progress' reason) := by
  have hrecords : progress.iterations.map IterationRecord.untimed =
      progress'.iterations.map IterationRecord.untimed := congrArg Progress.iterations hprogress
  refine C.steps.bind (h.startWatch _) fun _ _ _ => ?_
  refine C.steps.bind (h.stopWatch _) fun _ _ _ => ?_
  refine C.steps.bind (h.stopWatch _) fun elapsed elapsed' _ => ?_
  have hrun : (completed run progress.iterations reason elapsed).untimed =
      (completed run' progress'.iterations reason elapsed').untimed :=
    untimed_completed same hrecords reason elapsed elapsed'
  refine C.steps.bind (h.put (congrArg StoreWrite.run hrun)) fun _ _ _ => ?_
  refine C.steps.bind (C.steps_lift h.now) fun now now' _ => ?_
  refine C.steps.bind (C.steps_modify fun w w' hw => ?_) fun _ _ _ => ?_
  · rw [Stopwatches.untimed_stopAll, Stopwatches.untimed_stopAll, hw]
  refine C.steps.bind C.steps_get fun w w' hw => ?_
  refine C.steps.bind (h.putAll ?_) fun _ _ _ => ?_
  · have htimes := congrArg (List.map StoreWrite.time) ((w.untimed_records ctx.benchmark ctx.tool
      now).trans (hw ▸ (w'.untimed_records ctx.benchmark ctx.tool now').symm))
    rw [List.map_map, List.map_map] at htimes ⊢
    exact htimes
  · refine C.steps.pure ?_
    have hrefined : progress.refined = progress'.refined := (congrArg Progress.refined hprogress :)
    simp only [RunOutcome.untimed, outcome, hrun, hrecords, hrefined]

theorem openRun (h : env.Akin C ctx.deadline d env') :
    C.steps.Rel (fun run run' => run.untimed = run'.untimed) (openRun env ctx)
      (openRun env' (ctx.batched size d)) := by
  refine C.steps.bind (h.put rfl) fun _ _ _ => ?_
  refine C.steps.bind (C.steps_lift (h.resetResults _)) ?_
  rintro result _ rfl
  refine C.steps.bind (requireFile result) fun _ _ _ => ?_
  refine C.steps.bind (C.steps_lift h.today) fun today today' _ => ?_
  exact C.steps.bind (h.put rfl) fun _ _ _ => C.steps.pure rfl

omit [LawfulMonad m] [LawfulMonad n] in
theorem missingInput? (h : env.Akin C ctx.deadline d env') (request : RunRequest) :
    C.Rel Eq (missingInput? env request) (missingInput? env' request) := by
  unfold Run.missingInput?
  cases request.input with
  | none => exact C.pure rfl
  | some input =>
    refine C.bind (h.inputExists input) ?_
    rintro found _ rfl
    exact C.pure rfl

/-- Where partitions are classified alike, runs come to the same outcome, times aside. -/
theorem analyzeRequest (h : env.Akin C ctx.deadline d env')
    (classifies : env.ClassifiesAlike C ctx size d env') (request : RunRequest) :
    C.steps.Rel (fun o o' => o.untimed = o'.untimed) (analyzeRequest env ctx request)
      (analyzeRequest env' (ctx.batched size d) request) := by
  refine C.steps.bind (h.startWatch _) fun _ _ _ => ?_
  refine C.steps.bind (h.startWatch _) fun _ _ _ => ?_
  refine C.steps.bind h.openRun fun run run' hrun => ?_
  refine C.steps.bind (C.steps_lift (h.missingInput? request)) ?_
  rintro missing? _ rfl
  refine C.steps.bind (h.stopWatch _) fun _ _ _ => ?_
  cases missing? with
  | some input =>
    refine h.finish ?_ rfl _
    exact congrArg (withoutInput · input) hrun
  | none =>
    refine C.steps.bind (h.iterate classifies _ rfl) ?_
    rintro ⟨progress, reason⟩ ⟨progress', _⟩ ⟨hprogress, hreason⟩
    cases hreason
    refine h.finish ?_ hprogress _
    exact untimed_concluded hrun hprogress ctx size d reason

end Environment.Akin

/-! ## Runs in environments that are alike -/

namespace Environment.Alike

open Run

variable {m n : Type → Type} [Monad m] [Monad n] [LawfulMonad m] [LawfulMonad n]
  {C : Coupling m n} {ctx : RunContext} {d : Duration} {env : Environment m}
  {env' : Environment n}

theorem classify (h : env.Alike C ctx.deadline d env') (iteration : UInt32)
    (pieces : List (List Partition)) (found : Classified) :
    C.steps.Rel Eq (classify env ctx iteration pieces found)
      (classify env' (ctx.due d) iteration pieces found) := by
  induction pieces generalizing found with
  | nil => exact C.steps.pure rfl
  | cons batch rest ih =>
    rw [Run.classify, Run.classify]
    refine C.steps.bind (C.steps_lift h.isExpired) ?_
    rintro expired _ rfl
    cases expired with
    | true => exact C.steps.pure rfl
    | false =>
      refine C.steps.bind (C.steps_lift h.openBatch) fun _ _ _ => ?_
      refine C.steps.bind (C.steps_lift (h.desk.checkAll h.pick _ iteration batch)) ?_
      intro verdicts verdicts' hverdicts
      refine C.steps.bind (C.steps_lift h.closeBatch) ?_
      rintro ((cause | ⟨⟩) | _) _ rfl
      · exact C.steps.pure rfl
      · refine C.steps.bind (h.toAkin.conclude iteration batch hverdicts found) ?_
        rintro found' _ rfl
        exact ih found'
      · exact C.steps.pure rfl

/-- In environments that are alike runs come to the same outcome, times aside. -/
theorem analyzeRequest (h : env.Alike C ctx.deadline d env') (request : RunRequest) :
    C.steps.Rel (fun o o' => o.untimed = o'.untimed) (analyzeRequest env ctx request)
      (analyzeRequest env' (ctx.due d) request) :=
  h.toAkin.analyzeRequest (fun iteration _ => h.classify iteration _ {}) request

end Environment.Alike

end Regression
