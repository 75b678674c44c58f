import Regression.Refinement.Environment
import Regression.Solver.Artifacts
import Regression.Solver.Rehearsed
import Regression.Store.Basic
import Regression.Trace.Replay
import Regression.Watchdog

/-!
# The stage of a rehearsal

A rehearsal runs an analysis with stand-ins for everything outside: a trace is replayed, a
rehearsed solver answers, files and records are kept in memory, and faults strike where they are
planned. Its clock moves only when everything waits, straight to the next deadline.
-/

namespace Regression

namespace Rehearsal

/-- The work that a fault strikes. -/
inductive FaultPoint where
  | prepare
  | start
  | next
  | expand
  deriving DecidableEq, Repr, Inhabited

/-- A planned fault. It strikes before the work, and lets it go on if it has no error. -/
structure Fault where
  point : FaultPoint
  /-- The only iteration in which it strikes. -/
  iteration : Option UInt32 := none
  /-- The only number of partitions delivered before. -/
  delivered : Option Nat := none
  delay : Duration := .zero
  /-- The work never ends. -/
  hangs : Bool := false
  error : Option String := none
  deriving Repr

def Fault.strikes (f : Fault) (point : FaultPoint) (iteration : UInt32) (delivered : Nat) : Bool :=
  f.point = point && f.iteration.all (· = iteration) && f.delivered.all (· = delivered)

/-- Where answered queries are kept. -/
inductive Recorder where
  | memory
  /-- In files below a directory. -/
  | files (root : String)
  deriving Repr, Inhabited

structure Stage where
  clock : Duration := .zero
  today : Timestamp := ⟨0, 0⟩
  files : Files := .empty
  replay : Replay := { trace := {} }
  /-- Units are put back without consequences. -/
  forgetsExpansions : Bool := false
  faults : List Fault := []
  /-- The iteration that was prepared last. -/
  prepared : UInt32 := 0
  /-- The iteration that was begun last. -/
  started : UInt32 := 0
  /-- The partitions delivered since. -/
  delivered : Nat := 0
  solver : RehearsedSolver := {}
  /-- The queries that were asked. -/
  asked : List Query := []
  isCancelled : Bool := false
  recorder : Recorder := .memory
  /-- The queries kept in memory, in the order of recording. -/
  recorded : List RecordedQuery := []
  store : ResultStore := .memory .empty
  /-- The place of the store, if it is kept in a file. -/
  storePlace : Option Place := none
  /-- All writes, the failed ones included. -/
  writes : List StoreWrite := []
  /-- The write, counted from 1, that fails. -/
  failingWrite : Option Nat := none

/-- The steps of a rehearsal. -/
abbrev OnStage := StateM Stage

/-! ## Time -/

/-- A deadline that is never reached. -/
def never : Duration := .ofSeconds UInt64.size

/-- Let time pass, up to a deadline: whether the deadline was reached. -/
def elapse (deadline time : Duration) : OnStage Bool :=
  modifyGet fun s =>
    let watchdog : Watchdog := { deadline, limit := deadline }
    let (expired, clock) := watchdog.wait s.clock time
    (expired, { s with clock })

/-- Wait for a deadline. -/
def hang (deadline : Duration) : OnStage Unit :=
  modify fun s => { s with clock := if s.clock < deadline then deadline else s.clock }

/-- Suffer the faults that strike, one after the other. -/
def suffer (deadline : Duration) : List Fault → OnStage (Raced (Except Failure Unit))
  | [] => return .done (.ok ())
  | f :: rest => do
    if ← elapse deadline f.delay then return .expired
    if f.hangs then
      hang deadline
      return .expired
    match f.error with
    | some error => return .done (.error (.analysis (.reported error)))
    | none => suffer deadline rest

/-- Do some work after the faults planned for it, unless the deadline has come. -/
def perform {α : Type} (deadline : Duration) (point : FaultPoint) (iteration : UInt32)
    (delivered : Nat) (work : OnStage (Except Failure α)) : OnStage (Raced (Except Failure α)) := do
  let s ← get
  if deadline ≤ s.clock then return .expired
  match ← suffer deadline (s.faults.filter (·.strikes point iteration delivered)) with
  | .expired => return .expired
  | .done (.error e) => return .done (.error e)
  | .done (.ok ()) => return .done (← work)

/-! ## Exploration and instrumentation -/

def prepare (deadline : Duration) (iteration : UInt32) :
    OnStage (Raced (Except Failure Unit)) := do
  modify ({ · with prepared := iteration })
  perform deadline .prepare iteration 0 (return .ok ())

def start (deadline : Duration) (iteration : UInt32) : OnStage (Raced (Except Failure Unit)) := do
  modify ({ · with started := iteration, delivered := 0 })
  perform deadline .start iteration 0 <| modifyGet fun s =>
    match s.replay.start iteration with
    | .ok replay => (.ok (), { s with replay })
    | .error fault => (.error (.analysis fault), s)

def next (deadline : Duration) : OnStage (Raced (Except Failure (Option Partition))) := do
  let s ← get
  perform deadline .next s.started s.delivered <| modifyGet fun s =>
    match s.replay.next with
    | .ok (p, replay) => (.ok p, { s with replay, delivered := s.delivered + 1 })
    | .error fault => (.error (.analysis fault), s)

def expand (deadline : Duration) (unit : AbstractedUnit) :
    OnStage (Raced (Except Failure Unit)) := do
  perform deadline .expand (← get).prepared 0 <| modifyGet fun s =>
    if s.forgetsExpansions then (.ok (), s)
    else
      match s.replay.expand unit.name with
      | .ok replay => (.ok (), { s with replay })
      | .error fault => (.error (.analysis fault), s)

/-! ## Queries -/

/-- Wait for the answer to a query: whether the deadline was reached before. -/
def awaitAnswer (deadline : Duration) (q : Query) : OnStage Bool := do
  let solver := (← get).solver
  if solver.stalls q then
    hang deadline
    return true
  else if solver.duration q = .zero then return false
  else elapse deadline (solver.duration q)

/-- Answer a query. One that takes too long is cancelled at the deadline. -/
def ask (deadline : Duration) (q : Query) : OnStage (Except Failure Answer) := do
  let isLate ← awaitAnswer deadline q
  let s ← get
  let asked := s.asked ++ [q]
  let isLast := s.solver.cancelAfter = some asked.length
  set { s with asked, isCancelled := s.isCancelled || isLate || isLast }
  return if isLate then .error .cancelled else s.solver.answer q

def record (r : RecordedQuery) : OnStage (Except Failure Unit) :=
  modifyGet fun s =>
    match s.recorder with
    | .memory => (.ok (), { s with recorded := s.recorded ++ [r] })
    | .files root =>
      let (result, files) := (FileWork.keep root r).on s.files
      (result.mapError .ofFile, { s with files })

def desk (deadline : Duration) : QueryDesk OnStage where
  now := return (← get).clock
  isCancelled := return (← get).isCancelled
  ask := ask deadline
  record key query answer := record { key, query, answer }

/-! ## Store and files -/

def write (w : StoreWrite) : OnStage (Except StorageError Unit) :=
  modifyGet fun s =>
    let s := { s with writes := s.writes ++ [w] }
    if s.failingWrite = some s.writes.length then (.error (.database "injected"), s)
    else
      match s.store.write w with
      | .ok store => (.ok (), { s with store })
      | .error e => (.error e, s)

def onFiles (work : FileWork Unit) : OnStage (Except FileError Unit) :=
  modifyGet fun s =>
    let (result, files) := work.on s.files
    (result, { s with files })

/-- The environment of a rehearsal. -/
def environment : Environment OnStage where
  now := return (← get).clock
  today := return (← get).today
  inputExists path := return (← get).files.has path
  prepare := prepare
  start := start
  next := next
  summary := return (← get).replay.summary
  expand := expand
  isExpired deadline := return deadline ≤ (← get).clock
  openBatch := modify ({ · with isCancelled := false })
  closeBatch deadline := return if deadline ≤ (← get).clock then .expired else .done (.ok ())
  desk := desk
  write := write
  resetResults path := onFiles (.resetResults path)
  appendResults path text := onFiles (.appendResults path text)

end Rehearsal

end Regression
