import Regression.Partition
import Regression.Solver.Query
import Regression.Verdict

/-!
# The oracle

The oracle turns a partition into a verdict with up to three queries. The first one asks whether
the path is taken. If it may be, the second one asks whether the versions can differ there. If they
can, and an uninterpreted function occurs, the third one asks whether they can agree as well.

Raising an error differs from returning anything, so that only two errors of the same kind agree;
no query is needed to compare them.

The first failure ends the work on a partition; what was found out before is kept. Every answer is
kept with its query before it is used.
-/

namespace Regression

/-- An order in which the partitions of a batch are checked: which one is next in an iteration, of
those that are left. -/
abbrev PickOrder := UInt32 → Partition → (rest : List Partition) → Fin (rest.length + 1)

/-- The first partition that is left is the next one. -/
def PickOrder.inOrder : PickOrder := fun _ _ rest => ⟨0, Nat.succ_pos rest.length⟩

/-- Who answers queries, and keeps the answers. -/
structure QueryDesk (m : Type → Type) where
  now : m Duration
  /-- Whether no further query may be asked. -/
  isCancelled : m Bool
  ask : Query → m (Except Failure Answer)
  record : QueryKey → Query → Answer → m (Except Failure Unit)
  /-- Nothing says that partitions are checked in their order. -/
  pick : PickOrder := .inOrder

namespace Oracle

/-- The condition that two results are equal, or that they differ. The first result decides
whether texts are compared. -/
def relate (v1 v2 : Expr) (equal : Bool) : Except Malformed Expr := do
  let sort ← v1.sort?
  let op : Operator :=
    if sort = .string then (if equal then .equals else .notEquals)
    else if equal then .eq else .ne
  return .mk op v1 v2

/-- The answers to the queries about a partition, as far as they are known. -/
structure Statuses where
  pc : Option Status := none
  neq : Option Status := none
  eq : Option Status := none
  deriving DecidableEq, Repr, Inhabited

/-- What two outcomes tell of which at least one is an error. -/
def compareRaised (v1 v2 : Outcome) : Statuses :=
  if v1.raised?.isSome && v1.raised? = v2.raised? then { neq := some .unsat }
  else { neq := some .sat, eq := some .unsat }

variable {m : Type → Type} [Monad m] (desk : QueryDesk m) (timeoutMs : UInt64)

/-- Ask one query, and keep its answer. -/
def query (key : QueryKey) (conditions : List Expr) : m (Except Failure Status) := do
  if ← desk.isCancelled then return .error .cancelled
  match Query.build key.kind conditions timeoutMs with
  | .error e => return .error (.malformed e)
  | .ok q =>
    match ← desk.ask q with
    | .error e => return .error e
    | .ok answer =>
      match ← desk.record key q answer with
      | .error e => return .error e
      | .ok () => return .ok answer.status

/-- Ask whether two results are equal, or whether they differ, on a path. -/
def queryRelation (key : QueryKey) (pc v1 v2 : Expr) (equal : Bool) :
    m (Except Failure Status) :=
  match relate v1 v2 equal with
  | .error e => return .error (.malformed e)
  | .ok relation => query desk timeoutMs key [pc, relation]

/-- Ask about two results on a path that may be taken. -/
def compareReturned (iteration : UInt32) (p : Partition) (pc : Status) (v1 v2 : Expr) :
    m (Statuses × Option Failure) := do
  match ← queryRelation desk timeoutMs ⟨iteration, p.index, .neq⟩ p.pc v1 v2 false with
  | .error e => return ({ pc := some pc }, some e)
  | .ok neq =>
    if neq = .sat && p.hasUif then
      match ← queryRelation desk timeoutMs ⟨iteration, p.index, .eq⟩ p.pc v1 v2 true with
      | .error e => return ({ pc := some pc, neq := some neq }, some e)
      | .ok eq => return ({ pc := some pc, neq := some neq, eq := some eq }, none)
    else return ({ pc := some pc, neq := some neq }, none)

/-- Ask about a partition: the answers, and the failure that ended the asking. -/
def investigate (iteration : UInt32) (p : Partition) : m (Statuses × Option Failure) := do
  match ← query desk timeoutMs ⟨iteration, p.index, .pc⟩ [p.pc] with
  | .error e => return ({}, some e)
  | .ok pc =>
    if pc = .unsat then return ({ pc := some pc }, none)
    else
      match p.v1.expr?, p.v2.expr? with
      | some v1, some v2 => compareReturned desk timeoutMs iteration p pc v1 v2
      | _, _ => return ({ compareRaised p.v1 p.v2 with pc := some pc }, none)

/-- The verdict that follows from what was found out about a partition. -/
def conclude (p : Partition) (statuses : Statuses) (failure : Option Failure)
    (runtime : Duration) : Verdict :=
  { index := p.index
    pcStatus := statuses.pc
    neqStatus := statuses.neq
    eqStatus := statuses.eq
    hasUifPc := p.pc.hasUif
    hasUifV1 := p.v1.hasUif
    hasUifV2 := p.v2.hasUif
    constraintCount := p.pc.constraintCount
    depthLimited := p.depthLimited
    error := failure.map Failure.message
    runtime }

/-- The verdict on a partition. -/
def check (iteration : UInt32) (p : Partition) : m Verdict := do
  let start ← desk.now
  let (statuses, failure) ← investigate desk timeoutMs iteration p
  let runtime := (← desk.now).since start
  return conclude p statuses failure runtime

/-- The verdicts on several partitions, in their order. They are checked in the order in which the
desk picks them. -/
def checkAll (iteration : UInt32) : List Partition → m (List Verdict)
  | [] => return []
  | p :: rest => do
    let k := desk.pick iteration p rest
    let verdict ← check desk timeoutMs iteration ((p :: rest).get k)
    let verdicts ← checkAll iteration ((p :: rest).eraseIdx k)
    return verdicts.insertIdx k verdict
  termination_by partitions => partitions.length
  decreasing_by
    rw [List.length_eraseIdx_of_lt k.isLt]
    exact Nat.sub_lt (Nat.succ_pos _) Nat.one_pos

end Oracle

end Regression
