import Regression.Command.Basic
import Regression.Solver.Artifacts
import Regression.Store.Address
import Regression.Store.Saved
import Std.Time.DateTime.Timestamp

/-!
# The program

The commands on a real machine. Files are those of the file system, and the result database is one
of them. A solver runs beside the program and is reached by two named pipes: a query is written to
the pipe whose name is that of the solver with `.in` behind it, and what the solver says is read
from the one with `.out`.
-/

namespace Regression

namespace Program

/-- What a command works with. -/
structure Session where
  replay : Replay := { trace := {} }
  solver : SolverSettings := { parallelism := 1 }
  /-- Where queries are kept. -/
  artifacts : String := ""
  store : RelationalStore := .empty
  /-- The file of the result database, if it is kept in one. -/
  storePath : Option String := none

abbrev Work := StateT Session IO

/-! ## Files and time -/

def fileError : IO.Error → FileError
  | .noFileOrDirectory .. | .noSuchThing .. => .notFound
  | .alreadyExists .. => .exists
  | .permissionDenied .. => .denied
  | .inappropriateType _ code _ => if code = 21 then .isDirectory else .notDirectory
  | .invalidArgument .. => .nameTooLong
  | _ => .notDirectory

/-- Do something with files. -/
def attempt {α : Type} (action : IO α) : Work (Except FileError α) := do
  match ← action.toBaseIO with
  | .ok a => return .ok a
  | .error e => return .error (fileError e)

def isThere (path : String) : Work Bool := return (← attempt (IO.FS.realPath path)).isOk

def clock : IO Duration := return ⟨← IO.monoNanosNow⟩

def today : IO Timestamp := do
  let now ← Std.Time.Timestamp.now
  return ⟨now.toSecondsSinceUnixEpoch.val, 0⟩

def resetResults (path : String) : Work (Except FileError Unit) := do
  match ← attempt (IO.FS.removeFile path) with
  | .error .notFound => return .ok ()
  | result => return result

def appendResults (path text : String) : Work (Except FileError Unit) :=
  attempt do
    IO.FS.createDirAll (directoryOf path)
    let file ← IO.FS.Handle.mk path .append
    file.putStr text

/-! ## The solver -/

def canStart (binary : String) : Work Bool := isThere (binary ++ ".in")

/-- Wait for the end of a task, until some reading of the clock. -/
partial def await {α : Type} (task : Task α) (limit : Duration) : IO (Option α) := do
  if ← IO.hasFinished task then return some task.get
  if limit ≤ (← clock) then return none
  IO.sleep 10
  await task limit

def ask (deadline : Duration) (q : Query) : Work (Except Failure Answer) := do
  let solver := (← get).solver
  let exchange : IO String := do
    IO.FS.writeFile (solver.binary ++ ".in") q.script
    IO.FS.readFile (solver.binary ++ ".out")
  let patience := (← clock) + solver.patience
  let task ← IO.asTask exchange .dedicated
  match ← await task (if deadline ≤ patience then deadline else patience) with
  | some (.ok output) =>
    match Answer.parse output (some 0) with
    | .ok answer => return .ok answer
    | .error fault => return .error (.solver fault)
  | some (.error e) => return .error (.solver (.cannotStart solver.binary (toString e)))
  | none => return if deadline ≤ (← clock) then .error .cancelled else .ok (.unknown "timeout")

def record (r : RecordedQuery) : Work (Except Failure Unit) := do
  let directory := RecordedQuery.directory (← get).artifacts r.key.iteration
  let written ← attempt do
    IO.FS.createDirAll directory
    for (name, text) in r.artifacts do
      IO.FS.writeFile (joinPath directory name) text
  match written with
  | .ok () => return .ok ()
  | .error e => return .error (.ofFile e)

def desk (deadline : Duration) : QueryDesk Work where
  now := clock
  isCancelled := return deadline ≤ (← clock)
  ask := ask deadline
  record key query answer := record { key, query, answer }

/-! ## The result database -/

def save (path : Option String) (store : RelationalStore) : Work (Except StorageError Unit) := do
  let saved ← match path with
    | some path =>
      let written ← attempt (IO.FS.writeFile path store.toJson.written)
      pure (written.mapError fun _ => StorageError.cannotOpen path)
    | none => pure (.ok ())
  if saved.isOk then modify ({ · with store, storePath := path })
  return saved

def openStore (address : String) : Work (Except StorageError Unit) := do
  match StoreAddress.parse? address with
  | none => return .error (.cannotOpen address)
  | some .memory => save none .empty
  | some (.file path canMake) =>
    match ← attempt (IO.FS.readFile path) with
    | .error .notFound => if canMake then save path .empty else return .error (.cannotOpen path)
    | .error _ => return .error (.cannotOpen path)
    | .ok text =>
      match (Json.ofText? text).bind RelationalStore.ofJson? with
      | some store => save path store
      | none => if text.isEmpty then save path .empty else return .error .notDatabase

def write (w : StoreWrite) : Work (Except StorageError Unit) := do
  let s ← get
  match s.store.write w with
  | .ok store => save s.storePath store
  | .error e => return .error e

/-! ## Commands -/

/-- Do some short work, unless the deadline has come. -/
def inTime {α : Type} (deadline : Duration) (work : Session → Except AnalysisFault (α × Session)) :
    Work (Raced (Except Failure α)) := do
  if deadline ≤ (← clock) then return .expired
  match work (← get) with
  | .ok (a, s) =>
    set s
    return .done (.ok a)
  | .error fault => return .done (.error (.analysis fault))

/-- Change the replay. -/
def replaying {α : Type} (deadline : Duration)
    (step : Replay → Except AnalysisFault (α × Replay)) : Work (Raced (Except Failure α)) :=
  inTime deadline fun s => (step s.replay).map fun (a, replay) => (a, { s with replay })

def environment : Environment Work where
  now := clock
  today := today
  inputExists := isThere
  prepare deadline _ := inTime deadline fun s => .ok ((), s)
  start deadline iteration := replaying deadline fun r => (r.start iteration).map ((), ·)
  next deadline := replaying deadline Replay.next
  summary := return (← get).replay.summary
  expand deadline unit := replaying deadline fun r => (r.expand unit.name).map ((), ·)
  isExpired deadline := return deadline ≤ (← clock)
  openBatch := return ()
  closeBatch deadline := return if deadline ≤ (← clock) then .expired else .done (.ok ())
  desk := desk
  write := write
  resetResults := resetResults
  appendResults := appendResults

def system : System Work where
  processors := 1
  read path := attempt (IO.FS.readBinFile path)
  canStart := canStart
  openStore := openStore
  setUp solver artifacts trace :=
    modify ({ · with solver, artifacts, replay := { trace } })
  environment := environment

end Program

end Regression

open Regression in
def main (arguments : List String) : IO UInt32 := do
  let (result, _) ← ((CommandLine.parse arguments).perform Program.system).run {}
  IO.print result.output
  match result.failure with
  | some failure => IO.eprintln (programName ++ ": " ++ failure.message)
  | none => if result.exit = 2 then IO.eprint HelpTopic.program.text
  return result.exit
