import Regression.Json.Fields
import Regression.Refinement.Run
import Regression.Rehearsal.Stage

/-!
# Rehearsal plans

A plan says in JSON what is rehearsed: the settings that matter, the trace, how the solver answers,
and which faults strike. A field that is left out has a default. Several plans may be carried out
one after the other with the same store and the same files.
-/

namespace Regression

namespace Rehearsal

open Json

def queryKind? (j : Json) : Option QueryKind := do QueryKind.ofName? (← j.name?)

def tool? (j : Json) : Option Tool := do Tool.ofName? (← j.name?)

def heuristic? (j : Json) : Option Heuristic := do Heuristic.ofName? (← j.name?)

/-! ## Solvers -/

def queryPattern (j : Json) : FieldReader QueryPattern :=
  return {
    kind := ← j.decodedOr "kind" none (queryKind? · |>.map some)
    contains := ← j.optional "contains" text? }

def rule (j : Json) : FieldReader (QueryPattern × Reaction) := do
  let pattern ← queryPattern j
  let reaction ← match ← j.required "answer" text? with
    | "sat" => pure (.status .sat)
    | "unsat" => pure (.status .unsat)
    | "unknown" => pure (.status .unknown)
    | "timeout" => pure .timeout
    | "fail" => pure (.fail (← j.getOr "message" "" text?))
    | "stall" => pure .stall
    | _ => throw (.field "answer")
  return (pattern, reaction)

def recordedOutput (j : Json) : FieldReader (QueryPattern × ProcessOutput) := do
  let pattern ← queryPattern j
  let output ← j.required "output" text?
  let exit ← j.getOr "exit" 0 nat?
  let duration := Duration.ofMilliseconds (← j.getOr "sleep_ms" 0 nat?)
  return (pattern, { output, exit := some exit, duration })

def solver (j : Json) : FieldReader RehearsedSolver := do
  let otherwise ← j.decodedOr "otherwise" .sat status?
  let rules ← j.items "rules" rule
  let outputs ← j.items "outputs" recordedOutput
  let cancelAfter ← j.optional "cancel_after" nat?
  return { outputs, scripted := { rules, otherwise }, cancelAfter }

/-! ## Faults -/

def faultPoint? : Json → Option FaultPoint
  | .text "prepare" => some .prepare
  | .text "start" => some .start
  | .text "next" => some .next
  | .text "expand" => some .expand
  | _ => none

/-- Anything but nothing says that the work never ends. -/
def hangs : Json → Bool
  | .null => false
  | _ => true

def fault (j : Json) : FieldReader Fault := do
  let point ← j.required "at" faultPoint?
  let iteration ← j.optional "iteration" uint32?
  let delivered ← j.optional "after" nat?
  let delay := Duration.ofMilliseconds (← j.getOr "wait_ms" 0 nat?)
  return { point, iteration, delivered, delay, hangs := hangs (j.get "stall")
           error := ← j.optional "fail" text? }

/-! ## Recorders -/

/-- A file that stands in the way of a directory. -/
def obstacle : String := "blocked"

/-- A recorder, and the files with what it needs. -/
def recorder (j : Json) (root : String) (files : Files) : FieldReader (Recorder × Files) := do
  match ← j.getOr "recorder" "memory" text? with
  | "memory" => return (.memory, files)
  | "fs" => return (.files root, files)
  | "fs_blocked" => return (.files (joinPath obstacle "root"), files.set [obstacle] (.file ""))
  | _ => throw (.field "recorder")

/-! ## Traces -/

/-- A trace, as a value or as a text. -/
def trace (j : Json) : FieldReader Trace :=
  match j with
  | .text s => (Json.ofText? s |>.getD .null).decoded Trace.ofJson?
  | j => j.decoded Trace.ofJson?

/-! ## Plans -/

/-- One run to rehearse. -/
structure Plan where
  settings : Settings
  request : RunRequest
  stage : Stage

/-- Read a plan for a stage on which files and a store have been left. -/
def plan (files : Files) (store : ResultStore) (j : Json) : FieldReader Plan := do
  let timeoutMs ← j.getOr "timeout_ms" 1000 uint64?
  let parallelism ← j.getOr "parallelism" 2 uint64?
  let timeoutSecs ← j.getOr "timeout_secs" 3600 uint64?
  let tool ← j.decodedOr "tool" .cegar tool?
  let heuristic ← j.decodedOr "heuristic" .h123 heuristic?
  let benchmark ← j.getOr "benchmark" "Ell/sqrt" text?
  let settings : Settings := {
    solver := { timeoutMs, parallelism }
    refinement := { heuristic }
    run := { tool, timeoutSecs } }
  let faults ← j.items "faults" fault
  let trace ← trace (j.get "trace")
  let forgetsExpansions ← j.getOr "noop" false bool?
  let solver ← solver (j.get "solver")
  let root := joinPath (joinPath settings.run.artifactsDir benchmark) settings.label
  let (recorder, files) ← recorder j root files
  let failingWrite ← j.optional "store_fail_at" nat?
  let input ← j.optional "input" text?
  return {
    settings
    request := { benchmark, input }
    stage := { files, faults, forgetsExpansions, solver, recorder, store, failingWrite
               replay := { trace } } }

/-- What came of a rehearsal, and the stage as it was left. -/
def Plan.carryOut (p : Plan) : Except Failure RunOutcome × Stage :=
  (p.settings.analyze environment p.request).run p.stage

/-- What came of one plan among several: the plan and its outcome, or why it could not be read. -/
abbrev Rehearsed := FieldReader (Plan × Except Failure RunOutcome × Stage)

/-- Carry out plans one after the other, each on what the one before left. -/
def carryOutAll (files : Files) (store : ResultStore) : List Json → List Rehearsed
  | [] => []
  | j :: rest =>
    match plan files store j with
    | .error e => .error e :: carryOutAll files store rest
    | .ok p =>
      let (outcome, stage) := p.carryOut
      .ok (p, outcome, stage) :: carryOutAll stage.files stage.store rest

end Rehearsal

end Regression
