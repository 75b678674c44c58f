import Regression.Proofs.Run.Iteration
import Regression.Proofs.Store.Rows

/-!
# What a run does

A run as a relation between its history and its outcome: `Opens` and `Looks` for the work before the
first iteration, `Refines` and `Iterates` for the iterations, `Finishes` for the work behind the
last one, and `Runs` for all of it.

* `Run.shows_iterate`, `Run.shows_analyzeRequest`: these relations leave nothing out.
* `Settings.run_observed`: the history is that of the run itself.
* `Settings.runs_history`: the history of a run and its outcome are related.
-/

namespace Regression

/-- The times of a run belong to it. -/
theorem Stopwatches.owner_of_mem_records (watches : Stopwatches) {benchmark tool : String}
    (now : Duration) : ∀ t ∈ watches.records benchmark tool now, t.owner = (benchmark, tool) :=
  List.forall_mem_map.mpr fun _ _ => rfl

namespace Run

section

variable (ctx : RunContext)

/-! ## Iterations -/

/-- A unit was selected and put back, or there is a reason to stop. -/
inductive Refines (refined : List String) (inconclusive : NameSet) :
    History → Except StopReason String → Prop
  | exhausted {units : AbstractionSummary}
    (select : ctx.settings.refinement.heuristic.select? units (.ofList refined) inconclusive =
      none) :
    Refines refined inconclusive [.summarized units] (.error .nothingLeftToRefine)
  | expired {units : AbstractionSummary} {unit : AbstractedUnit}
    (select : ctx.settings.refinement.heuristic.select? units (.ofList refined) inconclusive =
      some unit) :
    Refines refined inconclusive [.summarized units, .expanded unit .expired] (.error .timedOut)
  | failed {units : AbstractionSummary} {unit : AbstractedUnit} {e : Failure}
    (select : ctx.settings.refinement.heuristic.select? units (.ofList refined) inconclusive =
      some unit) :
    Refines refined inconclusive [.summarized units, .expanded unit (.done (.error e))]
      (.error (.refinementFailed e.message))
  | expanded {units : AbstractionSummary} {unit : AbstractedUnit}
    (select : ctx.settings.refinement.heuristic.select? units (.ofList refined) inconclusive =
      some unit) :
    Refines refined inconclusive [.summarized units, .expanded unit (.done (.ok ()))]
      (.ok unit.name)

/-- Iterations were analysed until there was a reason to stop. -/
inductive Iterates : Nat → Progress → History → Except Failure (Progress × StopReason) → Prop
  | exhausted {progress : Progress} :
    Iterates 0 progress [] (.error (.analysis .iterationsExhausted))
  | failed {remaining : Nat} {progress : Progress} {es : History} {e : Failure}
    (analyzes : Analyzes ctx progress.next es (.error e)) :
    Iterates (remaining + 1) progress es (.error e)
  | timedOut {remaining : Nat} {progress : Progress} {es : History} {report : IterationReport}
    (analyzes : Analyzes ctx progress.next es (.ok report)) (expired : report.timedOut) :
    Iterates (remaining + 1) progress es (.ok (progress.analyzed report, .timedOut))
  | stopped {remaining : Nat} {progress : Progress} {es : History} {report : IterationReport}
    {reason : StopReason} (analyzes : Analyzes ctx progress.next es (.ok report))
    (inTime : report.timedOut = false)
    (stop : stopAfter? report.result ctx.settings.run.tool.canIterate = some reason) :
    Iterates (remaining + 1) progress es (.ok (progress.analyzed report, reason))
  | unrefined {remaining : Nat} {progress : Progress} {es es' : History}
    {report : IterationReport} {reason : StopReason}
    (analyzes : Analyzes ctx progress.next es (.ok report)) (inTime : report.timedOut = false)
    (goOn : stopAfter? report.result ctx.settings.run.tool.canIterate = none)
    (refines : Refines ctx progress.refined report.inconclusive es' (.error reason)) :
    Iterates (remaining + 1) progress (es ++ es') (.ok (progress.analyzed report, reason))
  | next {remaining : Nat} {progress : Progress} {es es' es'' : History}
    {report : IterationReport} {unit : String} {r : Except Failure (Progress × StopReason)}
    (analyzes : Analyzes ctx progress.next es (.ok report)) (inTime : report.timedOut = false)
    (goOn : stopAfter? report.result ctx.settings.run.tool.canIterate = none)
    (refines : Refines ctx progress.refined report.inconclusive es' (.ok unit))
    (iterates : Iterates remaining ((progress.analyzed report).expanded unit) es'' r) :
    Iterates (remaining + 1) progress (es ++ (es' ++ es'')) r

/-! ## Before and behind -/

/-- What an earlier run left was removed, and a new record was begun. -/
inductive Opens : History → Except Failure RunRecord → Prop
  | undeleted {e : StorageError} :
    Opens [.wrote (.deleteRun ctx.benchmark ctx.tool) (.error e)] (.error (.storage e))
  | unreset {e : FileError} :
    Opens [.wrote (.deleteRun ctx.benchmark ctx.tool) (.ok ()), .reset ctx.resultsPath (.error e)]
      (.error (.ofFile e))
  | unstored {today : Timestamp} {e : StorageError} :
    Opens [.wrote (.deleteRun ctx.benchmark ctx.tool) (.ok ()), .reset ctx.resultsPath (.ok ()),
      .wrote (.run (opening ctx today)) (.error e)] (.error (.storage e))
  | opened {today : Timestamp} :
    Opens [.wrote (.deleteRun ctx.benchmark ctx.tool) (.ok ()), .reset ctx.resultsPath (.ok ()),
      .wrote (.run (opening ctx today)) (.ok ())] (.ok (opening ctx today))

/-- It was found out whether the input is missing. -/
inductive Looks (request : RunRequest) : History → Option String → Prop
  | unasked (input : request.input = none) : Looks request [] none
  | found {path : String} (input : request.input = some path) :
    Looks request [.looked path true] none
  | missing {path : String} (input : request.input = some path) :
    Looks request [.looked path false] (some path)

/-- Rows were written until one could not be. -/
inductive PutsAll : List StoreWrite → History → Except Failure Unit → Prop
  | done : PutsAll [] [] (.ok ())
  | failed {row : StoreWrite} {rest : List StoreWrite} {e : StorageError} :
    PutsAll (row :: rest) [.wrote row (.error e)] (.error (.storage e))
  | next {row : StoreWrite} {rest : List StoreWrite} {es : History} {r : Except Failure Unit}
    (puts : PutsAll rest es r) : PutsAll (row :: rest) (.wrote row (.ok ()) :: es) r

/-- The record of a run was completed, and stored with the times. -/
inductive Finishes (run : RunRecord) (progress : Progress) (reason : StopReason) :
    History → Except Failure RunOutcome → Prop
  | unstored {elapsed : Duration} {e : StorageError} :
    Finishes run progress reason
      [.wrote (.run (completed run progress.iterations reason elapsed)) (.error e)]
      (.error (.storage e))
  | failed {elapsed : Duration} {times : List TimeRecord} {es : History} {e : Failure}
    (owned : ∀ t ∈ times, t.owner = (ctx.benchmark, ctx.tool))
    (puts : PutsAll (times.map .time) es (.error e)) :
    Finishes run progress reason
      (.wrote (.run (completed run progress.iterations reason elapsed)) (.ok ()) :: es) (.error e)
  | done {elapsed : Duration} {times : List TimeRecord} {es : History}
    (owned : ∀ t ∈ times, t.owner = (ctx.benchmark, ctx.tool))
    (puts : PutsAll (times.map .time) es (.ok ())) :
    Finishes run progress reason
      (.wrote (.run (completed run progress.iterations reason elapsed)) (.ok ()) :: es)
      (.ok (outcome (completed run progress.iterations reason elapsed) progress reason))

/-- A request was run to its end. -/
inductive Runs (request : RunRequest) : History → Except Failure RunOutcome → Prop
  | unopened {es : History} {e : Failure} (opens : Opens ctx es (.error e)) :
    Runs request es (.error e)
  | missing {es es' es'' : History} {run : RunRecord} {input : String}
    {r : Except Failure RunOutcome} (opens : Opens ctx es (.ok run))
    (looks : Looks request es' (some input))
    (finishes : Finishes ctx (withoutInput run input) {} .baseToolMissing es'' r) :
    Runs request (es ++ (es' ++ es'')) r
  | failed {es es' es'' : History} {run : RunRecord} {e : Failure}
    (opens : Opens ctx es (.ok run)) (looks : Looks request es' none)
    (iterates : Iterates ctx (UInt32.size - 1) {} es'' (.error e)) :
    Runs request (es ++ (es' ++ es'')) (.error e)
  | iterated {es es' es'' es₄ : History} {run : RunRecord} {progress : Progress}
    {reason : StopReason} {r : Except Failure RunOutcome} (opens : Opens ctx es (.ok run))
    (looks : Looks request es' none)
    (iterates : Iterates ctx (UInt32.size - 1) {} es'' (.ok (progress, reason)))
    (finishes : Finishes ctx (concluded ctx run progress reason) progress reason es₄ r) :
    Runs request (es ++ (es' ++ (es'' ++ es₄))) r

end

/-! ## The steps of a run -/

section

variable {σ : Type} (env : Environment (StateM σ)) (ctx : RunContext) {w : Stopwatches}

theorem shows_refine (iteration : UInt32) (refined : List String) (inconclusive : NameSet) :
    Shows env.CanEmit w (refine env.observed ctx iteration refined inconclusive)
      (refine env ctx iteration refined inconclusive)
      fun r es => ∃ r', value r = .ok r' ∧ Refines ctx refined inconclusive es r' := by
  refine shows_bind_startWatch fun now => ?_
  refine shows_bind_lift (shows_noting fun s => ⟨s, rfl⟩) ?_
  rintro units es rfl
  cases hselect : ctx.settings.refinement.heuristic.select? units (.ofList refined)
    inconclusive with
  | none =>
    refine shows_bind_stopWatch fun now => ?_
    exact shows_pure ⟨_, rfl, .exhausted hselect⟩
  | some unit =>
    refine shows_bind_lift (shows_noting fun s => ⟨_, s, rfl⟩) ?_
    rintro expanded es rfl
    refine shows_bind_stopWatch fun now => ?_
    rcases expanded with (e | _) | _
    · exact shows_pure ⟨_, rfl, .failed hselect⟩
    · exact shows_pure ⟨_, rfl, .expanded hselect⟩
    · exact shows_pure ⟨_, rfl, .expired hselect⟩

theorem shows_iterate (remaining : Nat) (progress : Progress) :
    Shows env.CanEmit w (iterate env.observed ctx remaining progress)
      (iterate env ctx remaining progress)
      fun r es => Iterates ctx remaining progress es (value r) := by
  induction remaining generalizing progress w with
  | zero => exact shows_throw .exhausted
  | succ remaining ih =>
    rw [iterate, iterate]
    refine shows_bind (shows_analyze env ctx _) ?_ ?_
    · intro e es hanalyzes
      exact .failed hanalyzes
    intro report w es hanalyzes
    cases hexpired : report.timedOut with
    | true =>
      refine shows_pure ?_
      rw [List.append_nil]
      exact .timedOut hanalyzes hexpired
    | false =>
      cases hstop : stopAfter? report.result ctx.settings.run.tool.canIterate with
      | some reason =>
        refine shows_pure ?_
        rw [List.append_nil]
        exact .stopped hanalyzes hexpired hstop
      | none =>
        refine shows_bind (shows_refine env ctx _ _ _) ?_ ?_
        · rintro e es ⟨_, h, -⟩
          cases h
        rintro refined w es' ⟨_, h, hrefines⟩
        cases h
        cases refined with
        | error reason =>
          refine shows_pure ?_
          rw [List.append_nil]
          exact .unrefined hanalyzes hexpired hstop hrefines
        | ok unit =>
          refine shows_mono (ih _) (fun _ h => h) ?_
          intro r es'' h
          exact .next hanalyzes hexpired hstop hrefines h

theorem shows_openRun :
    Shows env.CanEmit w (openRun env.observed ctx) (openRun env ctx)
      fun r es => Opens ctx es (value r) := by
  refine shows_bind_put (fun e => .undeleted) ?_
  refine shows_bind_lift (shows_noting fun s => ⟨s, rfl⟩) ?_
  rintro result es rfl
  refine shows_bind_requireFile ?_ ?_
  · rintro e rfl
    exact .unreset
  rintro rfl
  refine shows_bind_lift (shows_silent env.today) ?_
  rintro today es rfl
  refine shows_bind_put (fun e => .unstored) ?_
  exact shows_pure .opened

theorem shows_missingInput? (request : RunRequest) :
    Regression.Shows env.CanEmit (missingInput? env.observed request) (missingInput? env request)
      fun r es => Looks request es r := by
  unfold missingInput?
  cases hinput : request.input with
  | none => exact Regression.shows_pure (.unasked hinput)
  | some path =>
    refine Regression.shows_bind (shows_noting fun s => ⟨s, rfl⟩) ?_
    rintro found es rfl
    cases found with
    | true => exact Regression.shows_pure (.found hinput)
    | false => exact Regression.shows_pure (.missing hinput)

theorem shows_putAll (rows : List StoreWrite) :
    Shows env.CanEmit w (putAll env.observed rows) (putAll env rows)
      fun r es => PutsAll rows es (value r) := by
  induction rows with
  | nil => exact shows_pure .done
  | cons row rest ih =>
    rw [putAll, putAll]
    refine shows_bind_put (fun e => .failed) ?_
    exact shows_mono ih (fun _ h => h) fun _ _ h => .next h

theorem shows_finish (run : RunRecord) (progress : Progress) (reason : StopReason) :
    Shows env.CanEmit w (finish env.observed ctx run progress reason)
      (finish env ctx run progress reason)
      fun r es => Finishes ctx run progress reason es (value r) := by
  refine shows_bind_startWatch fun now => ?_
  refine shows_bind_stopWatch fun now => ?_
  refine shows_bind_stopWatch fun now => ?_
  refine shows_bind_put (fun e => .unstored) ?_
  refine shows_bind_lift (shows_silent env.now) ?_
  rintro now es rfl
  refine shows_bind (shows_modify _) (by rintro e es ⟨-, h⟩; cases h) ?_
  rintro _ w es ⟨rfl, h⟩
  cases h
  refine shows_bind shows_get (by rintro e es ⟨-, h⟩; cases h) ?_
  rintro _ w es ⟨rfl, h⟩
  cases h
  refine shows_bind (shows_putAll env _) ?_ ?_
  · intro e es hputs
    exact .failed (Stopwatches.owner_of_mem_records _ _) hputs
  · intro _ w es hputs
    refine shows_pure ?_
    rw [List.append_nil]
    exact .done (Stopwatches.owner_of_mem_records _ _) hputs

theorem shows_analyzeRequest (request : RunRequest) :
    Shows env.CanEmit w (analyzeRequest env.observed ctx request) (analyzeRequest env ctx request)
      fun r es => Runs ctx request es (value r) := by
  refine shows_bind_startWatch fun now => ?_
  refine shows_bind_startWatch fun now => ?_
  refine shows_bind (shows_openRun env ctx) ?_ ?_
  · intro e es hopens
    exact .unopened hopens
  intro run w es hopens
  refine shows_bind_lift (shows_missingInput? env request) ?_
  intro missing? es' hlooks
  refine shows_bind_stopWatch fun now => ?_
  cases missing? with
  | some input =>
    refine shows_mono (shows_finish env ctx _ _ _) (fun _ h => h) ?_
    intro r es'' hfinishes
    exact .missing hopens hlooks hfinishes
  | none =>
    refine shows_bind (shows_iterate env ctx _ _) ?_ ?_
    · intro e es'' hiterates
      exact .failed hopens hlooks hiterates
    rintro ⟨progress, reason⟩ w es'' hiterates
    refine shows_mono (shows_finish env ctx _ _ _) (fun _ h => h) ?_
    intro r es₄ hfinishes
    exact .iterated hopens hlooks hiterates hfinishes

end

end Run

/-! ## Requests -/

/-- Everything that is asked of the environment in a run. -/
def Settings.history {σ : Type} (settings : Settings) (env : Environment (StateM σ))
    (request : RunRequest) (s : σ) : History :=
  historyOf (settings.analyze env.observed request) s

theorem Settings.shows_analyze {σ : Type} (settings : Settings) (env : Environment (StateM σ))
    (request : RunRequest) :
    Shows env.CanEmit (settings.analyze env.observed request) (settings.analyze env request)
      fun r es => (∃ watchdog, Run.Runs (settings.context request watchdog) request es r) ∨
        es = [] ∧ r = .error (.analysis .noDeadline) := by
  refine shows_bind (shows_silent env.now) ?_
  rintro now es rfl
  cases Watchdog.start? now settings.run.timeout with
  | none => exact shows_pure (.inr ⟨rfl, rfl⟩)
  | some watchdog =>
    refine shows_bind (Run.shows_analyzeRequest (w := []) env _ request) ?_
    intro r es hruns
    refine shows_pure (.inl ?_)
    rw [List.append_nil]
    exact ⟨watchdog, hruns⟩

/-- To observe a run does not change it. -/
theorem Settings.run_observed {σ : Type} (settings : Settings) (env : Environment (StateM σ))
    (request : RunRequest) (s : σ) :
    ((settings.analyze env.observed request).run []).run s =
      ((((settings.analyze env request).run s).1, settings.history env request s),
        ((settings.analyze env request).run s).2) :=
  (settings.shows_analyze env request).run_eq s

/-- A run without a deadline does nothing; all others are related to their history. -/
theorem Settings.runs_or {σ : Type} (settings : Settings) (env : Environment (StateM σ))
    (request : RunRequest) (s : σ) :
    (∃ watchdog, Run.Runs (settings.context request watchdog) request
      (settings.history env request s) ((settings.analyze env request).run s).1) ∨
      settings.history env request s = [] ∧
        ((settings.analyze env request).run s).1 = .error (.analysis .noDeadline) :=
  ((settings.shows_analyze env request).holds s).1

/-- A run that ends well has an outcome for its history, and nothing else happens in it than the
environment allows. -/
theorem Settings.runs_history {σ : Type} {settings : Settings} {env : Environment (StateM σ)}
    {request : RunRequest} {s : σ} {outcome : RunOutcome}
    (h : ((settings.analyze env request).run s).1 = .ok outcome) :
    (∃ watchdog, Run.Runs (settings.context request watchdog) request
      (settings.history env request s) (.ok outcome)) ∧
      ∀ e ∈ settings.history env request s, env.CanEmit e := by
  refine ⟨?_, ((settings.shows_analyze env request).holds s).2⟩
  rcases settings.runs_or env request s with hruns | ⟨-, hr⟩
  · rwa [h] at hruns
  · rw [h] at hr
    cases hr

end Regression
