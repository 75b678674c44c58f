import Regression.Command.Help
import Regression.Config.Document
import Regression.Refinement.Run
import Regression.Trace.Replay

/-!
# Commands

`Command.run` carries out a command with the help of a system, which stands for the machine: its
files, its solver and its result database. The result is what the command prints.
-/

namespace Regression

/-- What commands need from the machine. -/
structure System (m : Type → Type) where
  processors : UInt64
  read : String → m (Except FileError ByteArray)
  /-- Whether a solver of this name can be started. -/
  canStart : String → m Bool
  /-- Open a result database, which is made if it does not exist. -/
  openStore : String → m (Except StorageError Unit)
  /-- Get ready to replay a trace with a solver, and to keep queries below a directory. -/
  setUp : SolverSettings → String → Trace → m Unit
  environment : Environment m

namespace RunOutcome

/-- The line that tells how a run ended. -/
def line (o : RunOutcome) : String :=
  o.run.benchmark ++ " " ++ o.run.tool ++ " " ++ o.classification.name ++ " (" ++
    toString o.iterations.length ++ " iterations, " ++ o.stopReason.display ++ ")\n"

end RunOutcome

/-- The line for an iteration of a results file. -/
def IterationRecord.line (r : IterationRecord) : String :=
  "iteration " ++ toString r.iteration.toNat ++ ": " ++
    (match r.result with
    | some c => c.name
    | none => "-") ++ "\n"

variable {m : Type → Type} [Monad m] (system : System m)

/-- The settings of a run, read from a file if one is given. -/
def System.settings (config : Option String) : ExceptT Failure m Settings := do
  match config with
  | none => return .default system.processors
  | some path =>
    match Settings.ofFile system.processors (← system.read path) with
    | .ok settings => return settings
    | .error e => throw (.config e)

/-- Analyse a recorded trace. -/
def CheckCommand.run (c : CheckCommand) : ExceptT Failure m String := do
  let settings ← system.settings c.config
  let binary := settings.solver.binary
  if !(← system.canStart binary) then throw (.solver (.notExecutable binary))
  match ← system.openStore c.database with
  | .ok () => pure ()
  | .error e => throw (.storage e)
  let text ← textOf (← system.read c.trace)
  match Replay.ofText? text with
  | none => throw .json
  | some replay =>
    let root := joinPath (joinPath settings.run.artifactsDir c.benchmark) settings.label
    system.setUp settings.solver root replay.trace
    let request : RunRequest := { benchmark := c.benchmark, input := c.input }
    let outcome ← ExceptT.mk (settings.analyze system.environment request)
    return outcome.line

/-- Classify the iterations of a results file. Nothing is known about the depth of its
explorations. -/
def ResultsCommand.run (c : ResultsCommand) : ExceptT Failure m String := do
  let content ← system.read c.file
  let iterations ←
    readResults c.file content c.benchmark c.tool c.errors c.timedOut fun _ => none
  return String.join (iterations.map (·.line))

namespace Command

def run : Command → ExceptT Failure m String
  | .check c => c.run system
  | .results c => c.run system

end Command

/-! ## Whole command lines -/

/-- How a command line ends: the exit code, and what is printed. -/
structure Completion where
  exit : UInt32
  output : String := ""
  failure : Option Failure := none

namespace Completion

def done (output : String) : Completion := { exit := 0, output }

def misuse : Completion := { exit := 2 }

/-- A command that failed. A run whose end no clock can tell is broken off. -/
def failed (e : Failure) : Completion :=
  { exit := if e = .analysis .noDeadline then 101 else 1, failure := some e }

end Completion

/-- Do what a command line asks for. -/
def CommandLine.perform : CommandLine → m Completion
  | .help topic => return .done topic.text
  | .version => return .done versionText
  | .misuse => return .misuse
  | .command c => do
    match ← (c.run system).run with
    | .ok output => return .done output
    | .error e => return .failed e

end Regression
