import Regression.Config.Settings
import Regression.Refinement.Environment
import Regression.Stopwatch
import Regression.Watchdog

/-!
# Runs

A run analyses a benchmark iteration by iteration. An iteration prepares the versions, explores
their partitions, and has the oracle check them in batches; every partition gets a row in the store
as soon as it is delivered, and another one in its place when it is classified. If the result is
not final, one abstracted unit is put back and the next iteration follows.

The watchdog may expire at any point. The work in progress is given up then, a batch of partitions
as a whole, and what was stored before stays stored. A batch may also be aborted, which ends the
iteration with an error.

Failures of the analysis become results. A run itself fails only when the store or the results file
does.
-/

namespace Regression

structure RunRequest where
  benchmark : String
  /-- The program to analyse, which has to exist. -/
  input : Option String := none
  deriving Repr

structure RunOutcome where
  run : RunRecord
  iterations : List IterationRecord
  stopReason : StopReason
  /-- The units that were put back, in this order. -/
  refined : List String
  deriving Repr

/-- The classification of a run that has finished. -/
def RunOutcome.classification (o : RunOutcome) : Classification := o.run.result.getD .missing

/-- What stays the same during a run. -/
structure RunContext where
  settings : Settings
  benchmark : String
  tool : String
  watchdog : Watchdog
  resultsPath : String

namespace RunContext

def deadline (ctx : RunContext) : Duration := ctx.watchdog.deadline

/-- The error text of an expired run. -/
def expiryText (ctx : RunContext) : String :=
  "timed out after " ++ toString ctx.watchdog.limit.wholeSeconds ++ " s"

end RunContext

/-- A list cut into pieces of a length, the last of which may be shorter. The length is one more
than `extra`. -/
def batches {α : Type} (extra : Nat) : List α → List (List α)
  | [] => []
  | a :: rest => (a :: rest.take extra) :: batches extra (rest.drop extra)
  termination_by items => items.length
  decreasing_by simp only [List.length_drop, List.length_cons]; omega

/-! ## What an iteration finds -/

/-- How the delivery of partitions ended. -/
inductive Ending where
  | drained
  | expired
  | failed (e : Failure)

/-- The outcome of preparing and exploring. -/
structure Exploration where
  /-- The partitions that were delivered in order, and stored. -/
  partitions : List Partition := []
  /-- Why preparing or exploring failed. -/
  error : Option String := none
  timedOut : Bool := false
  timings : List (String × Duration) := []

/-- The outcome of exploring after the versions were prepared. -/
def Exploration.upTo (partitions : List Partition) (ending : Ending)
    (timings : List (String × Duration)) : Exploration :=
  match ending with
  | .drained => { partitions, timings }
  | .expired => { partitions, timedOut := true, timings }
  | .failed e =>
    { partitions, error := some ("symbolic execution failed: " ++ e.message), timings }

/-- What is known of the partitions that have been classified. -/
structure Classified where
  classes : List Classification := []
  /-- The errors of partitions, with their indices. -/
  errors : List String := []
  /-- The names of uninterpreted functions in partitions without a definite classification. -/
  inconclusive : NameSet := .empty
  hasUif : Bool := false
  depthLimited : Bool := false
  /-- Why a batch was aborted. -/
  error : Option String := none
  timedOut : Bool := false

/-- The classification of a verdict and its error text. A fact that is missing for a
classification is an error. -/
def Verdict.result (v : Verdict) : Classification × Option String :=
  match v.classify with
  | .ok result => (result, v.error)
  | .error missing => (.error, some (Failure.precondition missing).message)

/-- Add a classified partition. -/
def Classified.add (f : Classified) (p : Partition) (v : Verdict) : Classified :=
  let (result, error) := v.result
  { f with
    classes := f.classes ++ [result]
    errors := f.errors ++
      match error with
      | some error => ["P" ++ toString v.index.toNat ++ ": " ++ error]
      | none => []
    inconclusive := if result.isConclusive then f.inconclusive else f.inconclusive.union p.uifNames
    hasUif := f.hasUif || v.hasUif
    depthLimited := f.depthLimited || v.depthLimited }

/-- The record of a classified partition. -/
def Verdict.record (v : Verdict) (benchmark tool : String) (iteration : UInt32) :
    PartitionRecord :=
  let (result, error) := v.result
  { benchmark, tool, iteration
    partition := v.index
    result := some result
    pcStatus := v.pcStatus
    neqStatus := v.neqStatus
    eqStatus := v.eqStatus
    hasUifPc := some v.hasUifPc
    hasUifV1 := some v.hasUifV1
    hasUifV2 := some v.hasUifV2
    hasTimedOut := some false
    isDepthLimited := some v.depthLimited
    constraintCount := some v.constraintCount
    runtime := some v.runtime.seconds
    errors := error }

/-- An analysed iteration. -/
structure IterationReport where
  result : Classification
  record : IterationRecord
  inconclusive : NameSet
  timedOut : Bool

/-- Iterations so far, and the units put back so far. -/
structure Progress where
  iterations : List IterationRecord := []
  refined : List String := []

namespace Progress

/-- The number of the iteration that follows. -/
def next (progress : Progress) : UInt32 := .ofNat (progress.iterations.length + 1)

/-- Add an iteration. -/
def analyzed (progress : Progress) (report : IterationReport) : Progress :=
  { progress with iterations := progress.iterations ++ [report.record] }

/-- Add a unit that was put back. -/
def expanded (progress : Progress) (unit : String) : Progress :=
  { progress with refined := progress.refined ++ [unit] }

end Progress

/-! ## Running -/

/-- Steps of a run, which keep the time and fail when the run fails. -/
abbrev RunM (m : Type → Type) := StateT Stopwatches (ExceptT Failure m)

namespace Run

variable {m : Type → Type} [Monad m] (env : Environment m)

def startWatch (name : String) : RunM m Unit := do
  let now ← env.now
  modify (·.start name now)

/-- Stop a stopwatch: its total time. -/
def stopWatch (name : String) : RunM m Duration := do
  let now ← env.now
  modifyGet fun watches => (watches.total name now, watches.stop name now)

def put (w : StoreWrite) : RunM m Unit := do
  match ← env.write w with
  | .ok () => return ()
  | .error e => throw (.storage e)

/-- Write one after the other, until one fails. -/
def putAll : List StoreWrite → RunM m Unit
  | [] => return ()
  | w :: rest => do
    put env w
    putAll rest

/-- Go on unless a file operation failed. -/
def requireFile (result : Except FileError Unit) : RunM m Unit :=
  match result with
  | .ok () => return ()
  | .error e => throw (.ofFile e)

variable (ctx : RunContext)

/-! ### Exploring -/

/-- Whether an index may follow the last one. -/
def follows (index : UInt32) (last : Option UInt32) : Bool := last.all (· < index)

/-- How many more indices may follow. -/
def room : Option UInt32 → Nat
  | none => UInt32.size
  | some last => UInt32.size - 1 - last.toNat

theorem room_lt {index : UInt32} {last : Option UInt32} (h : follows index last) :
    room (some index) < room last := by
  have := index.toNat_lt
  cases last with
  | none => simp only [room, UInt32.size]; omega
  | some last =>
    have : last.toNat < index.toNat := by simpa [follows, UInt32.lt_iff_toNat_lt] using h
    simp only [room, UInt32.size]
    omega

/-- Pull partitions until there are no more, each with a larger index than the one before, and note
each of them in the store. -/
def pull (iteration : UInt32) (last : Option UInt32) : m (List Partition × Ending) := do
  match ← env.next ctx.deadline with
  | .expired => return ([], .expired)
  | .done (.error e) => return ([], .failed e)
  | .done (.ok none) => return ([], .drained)
  | .done (.ok (some p)) =>
    if _ : follows p.index last then
      let record := PartitionRecord.indexOnly ctx.benchmark ctx.tool iteration p.index
      match ← env.write (.partition record) with
      | .error e => return ([], .failed (.storage e))
      | .ok () =>
        let (rest, ending) ← pull iteration (some p.index)
        return (p :: rest, ending)
    else return ([], .failed (.analysis (.outOfOrder p.index (last.getD 0))))
  termination_by room last
  decreasing_by exact room_lt (by assumption)

/-- Explore an iteration. -/
def deliver (iteration : UInt32) : m (List Partition × Ending) := do
  match ← env.start ctx.deadline iteration with
  | .expired => return ([], .expired)
  | .done (.error e) => return ([], .failed e)
  | .done (.ok ()) => pull env ctx iteration none

/-- Prepare an iteration, and explore it if that succeeds in time. -/
def explore (topic : String) (iteration : UInt32) : RunM m Exploration := do
  startWatch env (topic ++ ":instrumentation")
  let prepared ← env.prepare ctx.deadline iteration
  let preparing ← stopWatch env (topic ++ ":instrumentation")
  let timings := [("instrumentation", preparing)]
  match prepared with
  | .expired => return { timedOut := true, timings }
  | .done (.error e) => return { error := some ("instrumentation failed: " ++ e.message), timings }
  | .done (.ok ()) =>
    startWatch env (topic ++ ":symbolic-execution")
    let (partitions, ending) ← (deliver env ctx iteration : m (List Partition × Ending))
    let exploring ← stopWatch env (topic ++ ":symbolic-execution")
    return .upTo partitions ending (timings ++ [("symbolic-execution", exploring)])

/-! ### Classifying -/

/-- Store what was found out about some partitions. -/
def conclude (iteration : UInt32) : List (Partition × Verdict) → Classified → RunM m Classified
  | [], found => return found
  | (p, v) :: rest, found => do
    put env (.partition (v.record ctx.benchmark ctx.tool iteration))
    conclude iteration rest (found.add p v)

/-- Check batch after batch. A batch that is aborted or not finished in time is given up as a whole,
and so are those behind it. -/
def classify (iteration : UInt32) : List (List Partition) → Classified → RunM m Classified
  | [], found => return found
  | batch :: rest, found => do
    if ← env.isExpired ctx.deadline then return { found with timedOut := true }
    env.openBatch
    let desk := env.desk ctx.deadline
    let timeout := ctx.settings.solver.timeoutMs
    let verdicts ← (Oracle.checkAll desk timeout iteration batch : m (List Verdict))
    match ← env.closeBatch ctx.deadline with
    | .expired => return { found with timedOut := true }
    | .done (.error cause) =>
      return { found with error := some ("partition check aborted: " ++ cause) }
    | .done (.ok ()) =>
      let found ← conclude env ctx iteration (batch.zip verdicts) found
      classify iteration rest found

/-- Check the explored partitions, unless the watchdog has expired before. -/
def check (topic : String) (iteration : UInt32) (explored : Exploration) :
    RunM m (Classified × Duration) := do
  startWatch env (topic ++ ":classification")
  let found ←
    if explored.timedOut then pure { timedOut := true }
    else
      let extra := ctx.settings.solver.parallelism.toNat - 1
      classify env ctx iteration (batches extra explored.partitions) {}
  let checking ← stopWatch env (topic ++ ":classification")
  return (found, checking)

/-! ### Iterations -/

/-- The error texts of an iteration with a given result: first those of the whole iteration, and
those of the partitions if one of them decided the result. -/
def errorTexts (explored : Exploration) (found : Classified) (result : Classification) :
    List String :=
  explored.error.toList ++ found.error.toList ++
    (if found.timedOut then [ctx.expiryText] else []) ++
    (if result = .error then found.errors else [])

/-- The result of an iteration. -/
def resultOfIteration (explored : Exploration) (found : Classified) : Classification :=
  classifyIteration found.classes ⟨explored.error.isSome || found.error.isSome, found.timedOut⟩

/-- What is known of an iteration in the end. -/
def reportOf (iteration : UInt32) (explored : Exploration) (found : Classified)
    (elapsed : Duration) : IterationReport :=
  let result := resultOfIteration explored found
  let errors := errorTexts ctx explored found result
  let record := { IterationRecord.started ctx.benchmark ctx.tool iteration with
    result := some result
    hasTimedOut := some found.timedOut
    isDepthLimited := some found.depthLimited
    hasUif := some found.hasUif
    partitionCount := some (.ofNat explored.partitions.length)
    errors := if errors.isEmpty then none else some ("\n".intercalate errors)
    runtime := some elapsed.seconds }
  { result, record, inconclusive := found.inconclusive, timedOut := found.timedOut }

/-- The block for an iteration in the results file. -/
def blockOf (explored : Exploration) (found : Classified) (checking : Duration) : ResultsBlock :=
  let result := resultOfIteration explored found
  { timings := explored.timings ++ [("classification", checking)]
    classification := result
    reason := (errorTexts ctx explored found result).head? }

/-- Analyse one iteration. -/
def analyze (iteration : UInt32) : RunM m IterationReport := do
  let topic := "iteration-" ++ toString iteration.toNat
  startWatch env topic
  put env (.iteration (IterationRecord.started ctx.benchmark ctx.tool iteration))
  let explored ← explore env ctx topic iteration
  let (found, checking) ← check env ctx topic iteration explored
  let elapsed ← stopWatch env topic
  let report := reportOf ctx iteration explored found elapsed
  put env (.iteration report.record)
  let block := blockOf ctx explored found checking
  requireFile (← env.appendResults ctx.resultsPath block.text)
  return report

/-- Put one unit back: its name, or the reason to stop. -/
def refine (iteration : UInt32) (refined : List String) (inconclusive : NameSet) :
    RunM m (Except StopReason String) := do
  let phase := "iteration-" ++ toString iteration.toNat ++ ":refinement"
  startWatch env phase
  let units ← env.summary
  match ctx.settings.refinement.heuristic.select? units (.ofList refined) inconclusive with
  | none =>
    let _ ← stopWatch env phase
    return .error .nothingLeftToRefine
  | some unit =>
    let expanded ← env.expand ctx.deadline unit
    let _ ← stopWatch env phase
    match expanded with
    | .expired => return .error .timedOut
    | .done (.error e) => return .error (.refinementFailed e.message)
    | .done (.ok ()) => return .ok unit.name

/-- Analyse and refine until there is a reason to stop. `remaining` iterations can still be
numbered. -/
def iterate : (remaining : Nat) → Progress → RunM m (Progress × StopReason)
  | 0, _ => throw (.analysis .iterationsExhausted)
  | remaining + 1, progress => do
    let iteration := progress.next
    let report ← analyze env ctx iteration
    let progress := progress.analyzed report
    if report.timedOut then return (progress, .timedOut)
    match stopAfter? report.result ctx.settings.run.tool.canIterate with
    | some reason => return (progress, reason)
    | none =>
      match ← refine env ctx iteration progress.refined report.inconclusive with
      | .error reason => return (progress, reason)
      | .ok unit => iterate remaining (progress.expanded unit)

/-! ### The whole run -/

/-- The classification of a run with iterations. -/
def resultOf (reason : StopReason) (iterations : List IterationRecord) : Classification :=
  match reason with
  | .timedOut => .timeout
  | .refinementFailed _ => .error
  | _ => classifyRun (iterations.filterMap (·.result))

/-- The error text of a run with iterations. -/
def errorsOf (reason : StopReason) (iterations : List IterationRecord) : Option String :=
  let last := iterations.getLast?.bind (·.errors)
  match reason with
  | .timedOut => some ((last.filter (Text.occursIn "timed out" ·)).getD ctx.expiryText)
  | .refinementFailed error => some error
  | _ => last

/-- The record of a run, completed from its iterations. -/
def completed (run : RunRecord) (iterations : List IterationRecord) (reason : StopReason)
    (elapsed : Duration) : RunRecord :=
  let any (flag : IterationRecord → Option Bool) := iterations.any (flag · == some true)
  { run with
    hasTimedOut := some (reason == .timedOut || any (·.hasTimedOut))
    isDepthLimited := some (any (·.isDepthLimited))
    hasUif := some (any (·.hasUif))
    iterationCount := some (.ofNat iterations.length)
    runtime := some elapsed.seconds }

/-- The outcome of a run whose record is complete. -/
def outcome (run : RunRecord) (progress : Progress) (reason : StopReason) : RunOutcome :=
  { run, iterations := progress.iterations, stopReason := reason, refined := progress.refined }

/-- Complete the record of a run, and store it with the times of all stopwatches. -/
def finish (run : RunRecord) (progress : Progress) (reason : StopReason) : RunM m RunOutcome := do
  startWatch env "run:finalization"
  let _ ← stopWatch env "run:finalization"
  let elapsed ← stopWatch env "run"
  let run := completed run progress.iterations reason elapsed
  put env (.run run)
  let now ← env.now
  modify (·.stopAll now)
  let records := (← get).records ctx.benchmark ctx.tool now
  putAll env (records.map .time)
  return outcome run progress reason

/-- The error text of a run without input. -/
def missingInputText (input : String) : String := "Error: '" ++ input ++ "' does not exist."

/-- The record of a run that begins. -/
def opening (today : Timestamp) : RunRecord :=
  { RunRecord.started ctx.benchmark ctx.tool today with
    canIterate := some ctx.settings.run.tool.canIterate }

/-- Remove what an earlier run left, and begin a new record. -/
def openRun : RunM m RunRecord := do
  put env (.deleteRun ctx.benchmark ctx.tool)
  requireFile (← env.resetResults ctx.resultsPath)
  let today ← env.today
  let run := opening ctx today
  put env (.run run)
  return run

/-- The input of a request that does not exist. -/
def missingInput? (request : RunRequest) : m (Option String) :=
  match request.input with
  | some input => do return if ← env.inputExists input then none else some input
  | none => return none

/-- The record of a run without input. -/
def withoutInput (run : RunRecord) (input : String) : RunRecord :=
  { run with
    result := some .baseToolMissing
    errors := some (missingInputText input) }

/-- The record of a run after its last iteration. -/
def concluded (run : RunRecord) (progress : Progress) (reason : StopReason) : RunRecord :=
  { run with
    result := some (resultOf reason progress.iterations)
    errors := errorsOf ctx reason progress.iterations }

/-- Remove what an earlier run left, and analyse the request. -/
def analyzeRequest (request : RunRequest) : RunM m RunOutcome := do
  startWatch env "run"
  startWatch env "run:initialization"
  let run ← openRun env ctx
  let missing? ← (missingInput? env request : m (Option String))
  let _ ← stopWatch env "run:initialization"
  match missing? with
  | some input => finish env ctx (withoutInput run input) {} .baseToolMissing
  | none =>
    let (progress, reason) ← iterate env ctx (UInt32.size - 1) {}
    finish env ctx (concluded ctx run progress reason) progress reason

end Run

/-- What stays the same during a run of these settings. -/
def Settings.context (settings : Settings) (request : RunRequest) (watchdog : Watchdog) :
    RunContext :=
  { settings, watchdog
    tool := settings.label
    benchmark := request.benchmark
    resultsPath := resultsPath settings.run.artifactsDir request.benchmark settings.label }

/-- Run a request to its end. -/
def Settings.analyze {m : Type → Type} [Monad m] (settings : Settings) (env : Environment m)
    (request : RunRequest) : m (Except Failure RunOutcome) := do
  let now ← env.now
  match Watchdog.start? now settings.run.timeout with
  | none => return .error (.analysis .noDeadline)
  | some watchdog =>
    let ctx := settings.context request watchdog
    return (← (Run.analyzeRequest env ctx request).run [] |>.run).map (·.1)

end Regression
