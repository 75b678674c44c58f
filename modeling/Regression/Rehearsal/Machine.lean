import Regression.Command.Basic
import Regression.Rehearsal.Stage
import Regression.Store.Address

/-!
# Rehearsed machines

Commands can be rehearsed as well: with files that exist in memory only, and with one solver
program, which plays back its outputs. A program is started by its path, or by its name alone if it
is installed.
-/

namespace Regression

namespace Rehearsal

/-- A machine with a solver program. -/
structure Machine where
  /-- Its path from the working directory, or its name if it is installed. -/
  solverName : String
  processors : UInt64 := 4

/-! ## Programs -/

/-- Whether the name of a program is a path. -/
def isPath (name : String) : Bool := name.toList.contains '/'

/-- The files, and the solver program if it is one of them. -/
def Machine.programs (machine : Machine) (t : Files) : Files :=
  if isPath machine.solverName then (FileWork.create machine.solverName "").on t |>.2 else t

/-- Look for the solver program under a name. Nothing else can be started, neither another file nor
a directory. -/
def Machine.locate (machine : Machine) (t : Files) (name : String) : Except FileError Unit := do
  if isPath name then
    let t := machine.programs t
    let found ← t.lookup name
    let solver := if isPath machine.solverName then t.lookup machine.solverName else throw .notFound
    if found.2 = .directory || solver.toOption ≠ some found then throw .denied
  else if name ≠ machine.solverName then
    if name = "." || name = ".." then throw .denied
    else if isLongName name then throw .nameTooLong
    else throw .notFound

/-- Start a program: why it cannot be started, if it cannot. -/
def Machine.start (machine : Machine) (t : Files) (name : String) : Except String Unit :=
  if name.toList.contains '\x00' then .error "nul byte found in provided data"
  else (machine.locate t name).mapError FileError.message

def Machine.canStart (machine : Machine) (t : Files) (name : String) : Bool :=
  (machine.start t name).isOk

/-- Ask a program one query, which is cancelled at the deadline. -/
def Machine.ask (machine : Machine) (t : Files) (program : RehearsedSolver) (binary : String)
    (deadline : Duration) (q : Query) : Except Failure Answer :=
  match machine.start t binary with
  | .ok () => ((Rehearsal.ask deadline q).run { solver := program }).1
  | .error reason => .error (.solver (.cannotStart binary reason))

/-! ## Result databases -/

/-- Open the result database that an address tells of: its place, if it is kept in a file. Only an
empty file can be made a database. -/
def openDatabase (address : String) (t : Files) :
    Except StorageError (Option Place) × Files :=
  match StoreAddress.parse? address with
  | none => (.error (.cannotOpen address), t)
  | some .memory => (.ok none, t)
  | some (.file path canMake) =>
    match (FileWork.openPath path canMake).on t with
    | (.ok (place, text), t) =>
      (if text.isEmpty then .ok (some place) else .error .notDatabase, t)
    | (.error _, t) => (.error (.cannotOpen path), t)

def openStore (address : String) : OnStage (Except StorageError Unit) :=
  modifyGet fun s =>
    match openDatabase address s.files with
    | (.ok storePlace, files) => (.ok (), { s with files, store := .relational .empty, storePlace })
    | (.error e, files) => (.error e, { s with files })

/-- What a result database holds after a rehearsal. -/
def Stage.storeAt (s : Stage) (address : String) : Except StorageError ResultStore := do
  let place ← (openDatabase address s.files).1
  return if place.isSome && place = s.storePlace then s.store else .relational .empty

/-! ## Commands -/

def Machine.system (machine : Machine) : System OnStage where
  processors := machine.processors
  read path := return (← get).files.read path |>.map String.toUTF8
  canStart binary := return machine.canStart (← get).files binary
  openStore := openStore
  setUp _ root trace := modify ({ · with replay := { trace }, recorder := .files root })
  environment := environment

/-- Do what a command line asks for, with files and the outputs of a solver program. -/
def Machine.perform (machine : Machine) (files : Files) (program : RehearsedSolver)
    (arguments : List String) : Completion × Stage :=
  ((CommandLine.parse arguments).perform machine.system).run { files, solver := program }

end Rehearsal

end Regression
