import Regression.Store.Table
import Regression.Store.Write

/-!
# Relational stores

The same records in four tables. Every write replaces or deletes rows by their key columns, and
every reading decodes the selected columns from the left, so that the first bad one is reported.
-/

namespace Regression

/-! ## Rows of records -/

namespace RunRecord

def columns : List String :=
  ["benchmark", "tool", "result", "has_timed_out", "is_depth_limited", "has_uif", "can_iterate",
    "iteration_count", "runtime", "errors", "started_at"]

def toRow (r : RunRecord) : Row :=
  [("benchmark", .text r.benchmark), ("tool", .text r.tool),
    ("result", .ofOption (.text ·.name) r.result),
    ("has_timed_out", .ofOption .ofBool r.hasTimedOut),
    ("is_depth_limited", .ofOption .ofBool r.isDepthLimited),
    ("has_uif", .ofOption .ofBool r.hasUif), ("can_iterate", .ofOption .ofBool r.canIterate),
    ("iteration_count", .ofOption .ofUInt32 r.iterationCount),
    ("runtime", .ofOption .ofReal r.runtime), ("errors", .ofOption .text r.errors),
    ("started_at", .timestamp r.startedAt)]

def ofRow (row : Row) : Except StorageError RunRecord := do
  return {
    benchmark := ← row.decode 0 Row.text?
    tool := ← row.decode 1 Row.text?
    result := ← row.named 2 Classification.parse
    hasTimedOut := ← row.decode 3 (Row.nullable Row.bool?)
    isDepthLimited := ← row.decode 4 (Row.nullable Row.bool?)
    hasUif := ← row.decode 5 (Row.nullable Row.bool?)
    canIterate := ← row.decode 6 (Row.nullable Row.bool?)
    iterationCount := ← row.decode 7 (Row.nullable Row.uint32?)
    runtime := ← row.decode 8 (Row.nullable Row.real?)
    errors := ← row.decode 9 (Row.nullable Row.text?)
    startedAt := ← row.timestamp 10 }

end RunRecord

namespace IterationRecord

def columns : List String :=
  ["benchmark", "tool", "iteration", "result", "has_timed_out", "is_depth_limited", "has_uif",
    "partition_count", "runtime", "errors"]

def toRow (r : IterationRecord) : Row :=
  [("benchmark", .text r.benchmark), ("tool", .text r.tool), ("iteration", .ofUInt32 r.iteration),
    ("result", .ofOption (.text ·.name) r.result),
    ("has_timed_out", .ofOption .ofBool r.hasTimedOut),
    ("is_depth_limited", .ofOption .ofBool r.isDepthLimited),
    ("has_uif", .ofOption .ofBool r.hasUif),
    ("partition_count", .ofOption .ofUInt32 r.partitionCount),
    ("runtime", .ofOption .ofReal r.runtime), ("errors", .ofOption .text r.errors)]

def ofRow (row : Row) : Except StorageError IterationRecord := do
  return {
    benchmark := ← row.decode 0 Row.text?
    tool := ← row.decode 1 Row.text?
    iteration := ← row.decode 2 Row.uint32?
    result := ← row.named 3 Classification.parse
    hasTimedOut := ← row.decode 4 (Row.nullable Row.bool?)
    isDepthLimited := ← row.decode 5 (Row.nullable Row.bool?)
    hasUif := ← row.decode 6 (Row.nullable Row.bool?)
    partitionCount := ← row.decode 7 (Row.nullable Row.uint32?)
    runtime := ← row.decode 8 (Row.nullable Row.real?)
    errors := ← row.decode 9 (Row.nullable Row.text?) }

end IterationRecord

namespace PartitionRecord

/-- The columns that are read back. -/
def columns : List String :=
  ["benchmark", "tool", "iteration", "partition_index", "result", "pc_status", "neq_status",
    "eq_status", "has_uif_pc", "has_uif_v1", "has_uif_v2", "has_timed_out", "is_depth_limited",
    "constraint_count", "runtime", "errors"]

/-- A row also tells whether there is an uninterpreted function at all. -/
def toRow (r : PartitionRecord) : Row :=
  [("benchmark", .text r.benchmark), ("tool", .text r.tool), ("iteration", .ofUInt32 r.iteration),
    ("partition_index", .ofUInt32 r.partition), ("result", .ofOption (.text ·.name) r.result),
    ("pc_status", .ofOption (.text ·.name) r.pcStatus),
    ("neq_status", .ofOption (.text ·.name) r.neqStatus),
    ("eq_status", .ofOption (.text ·.name) r.eqStatus),
    ("has_uif", .ofOption .ofBool r.hasUif), ("has_uif_pc", .ofOption .ofBool r.hasUifPc),
    ("has_uif_v1", .ofOption .ofBool r.hasUifV1), ("has_uif_v2", .ofOption .ofBool r.hasUifV2),
    ("has_timed_out", .ofOption .ofBool r.hasTimedOut),
    ("is_depth_limited", .ofOption .ofBool r.isDepthLimited),
    ("constraint_count", .ofOption .ofUInt32 r.constraintCount),
    ("runtime", .ofOption .ofReal r.runtime), ("errors", .ofOption .text r.errors)]

def ofRow (row : Row) : Except StorageError PartitionRecord := do
  return {
    benchmark := ← row.decode 0 Row.text?
    tool := ← row.decode 1 Row.text?
    iteration := ← row.decode 2 Row.uint32?
    partition := ← row.decode 3 Row.uint32?
    result := ← row.named 4 Classification.parse
    pcStatus := ← row.named 5 Status.parse
    neqStatus := ← row.named 6 Status.parse
    eqStatus := ← row.named 7 Status.parse
    hasUifPc := ← row.decode 8 (Row.nullable Row.bool?)
    hasUifV1 := ← row.decode 9 (Row.nullable Row.bool?)
    hasUifV2 := ← row.decode 10 (Row.nullable Row.bool?)
    hasTimedOut := ← row.decode 11 (Row.nullable Row.bool?)
    isDepthLimited := ← row.decode 12 (Row.nullable Row.bool?)
    constraintCount := ← row.decode 13 (Row.nullable Row.uint32?)
    runtime := ← row.decode 14 (Row.nullable Row.real?)
    errors := ← row.decode 15 (Row.nullable Row.text?) }

end PartitionRecord

namespace TimeRecord

def columns : List String :=
  ["benchmark", "tool", "topic", "task", "runtime", "step", "is_missing"]

def toRow (r : TimeRecord) : Row :=
  [("benchmark", .text r.benchmark), ("tool", .text r.tool), ("topic", .text r.topic),
    ("task", .text r.task), ("runtime", .ofReal r.runtime), ("step", .ofUInt32 r.step),
    ("is_missing", .ofBool r.isMissing)]

def ofRow (row : Row) : Except StorageError TimeRecord := do
  return {
    benchmark := ← row.decode 0 Row.text?
    tool := ← row.decode 1 Row.text?
    topic := ← row.decode 2 Row.text?
    task := ← row.decode 3 Row.text?
    runtime := ← row.decode 4 Row.real?
    step := ← row.decode 5 Row.uint32?
    isMissing := ← row.decode 6 Row.bool? }

end TimeRecord

/-! ## The store -/

structure RelationalStore where
  runs : Table
  iterations : Table
  partitions : Table
  times : Table
  deriving Repr

namespace RelationalStore

/-- Four empty tables. -/
def empty : RelationalStore where
  runs := { name := "runs", columns := RunRecord.columns, keyLength := 2 }
  iterations := { name := "iterations", columns := IterationRecord.columns, keyLength := 3 }
  partitions := { name := "partitions", columns := PartitionRecord.columns ++ ["has_uif"]
                  keyLength := 4 }
  times := { name := "times", columns := TimeRecord.columns, keyLength := 4
             required := ["runtime"] }

instance : Inhabited RelationalStore := ⟨empty⟩

/-- The condition on a row to belong to a run. -/
def ofRun (benchmark tool : String) : Row :=
  [("benchmark", .text benchmark), ("tool", .text tool)]

/-- The condition on a row to belong to an iteration. -/
def ofIteration (benchmark tool : String) (iteration : UInt32) : Row :=
  ofRun benchmark tool ++ [("iteration", .ofUInt32 iteration)]

def write (s : RelationalStore) (w : StoreWrite) : Except StorageError RelationalStore := do
  w.validate
  match w with
  | .run r => return { s with runs := ← s.runs.insert r.toRow }
  | .iteration r => return { s with iterations := ← s.iterations.insert r.toRow }
  | .partition r => return { s with partitions := ← s.partitions.insert r.toRow }
  | .time r => return { s with times := ← s.times.insert r.toRow }
  | .deleteRun benchmark tool =>
    let condition := ofRun benchmark tool
    return {
      runs := s.runs.delete condition
      iterations := s.iterations.delete condition
      partitions := s.partitions.delete condition
      times := s.times.delete condition }

/-! ## Reading -/

def getRun (s : RelationalStore) (benchmark tool : String) :
    Except StorageError (Option RunRecord) :=
  match s.runs.find RunRecord.columns (ofRun benchmark tool) with
  | [] => .ok none
  | row :: _ => (RunRecord.ofRow row).map some

def getIteration (s : RelationalStore) (benchmark tool : String) (iteration : UInt32) :
    Except StorageError (Option IterationRecord) :=
  match s.iterations.find IterationRecord.columns (ofIteration benchmark tool iteration) with
  | [] => .ok none
  | row :: _ => (IterationRecord.ofRow row).map some

def listIterations (s : RelationalStore) (benchmark tool : String) :
    Except StorageError (List IterationRecord) :=
  let rows := s.iterations.find IterationRecord.columns (ofRun benchmark tool)
  (rows.mergeSort (Row.le ["iteration"])).mapM IterationRecord.ofRow

def listPartitions (s : RelationalStore) (benchmark tool : String) (iteration : UInt32) :
    Except StorageError (List PartitionRecord) :=
  let rows := s.partitions.find PartitionRecord.columns (ofIteration benchmark tool iteration)
  (rows.mergeSort (Row.le ["partition_index"])).mapM PartitionRecord.ofRow

/-- Times of the same step come in the order of their keys. -/
def listTimes (s : RelationalStore) (benchmark tool : String) :
    Except StorageError (List TimeRecord) :=
  let rows := s.times.find TimeRecord.columns (ofRun benchmark tool)
  (rows.mergeSort (Row.le ["step", "topic", "task"])).mapM TimeRecord.ofRow

/-! ## Damage -/

/-- Set a column of a named table to a text in all rows: the number of rows, and the store
afterwards; `none` if there is no such column. -/
def overwrite? (s : RelationalStore) (table column text : String) :
    Option (Nat × RelationalStore) :=
  let change (t : Table) (put : Table → RelationalStore) : Option (Nat × RelationalStore) :=
    if column ∈ t.columns then some (t.rows.length, put (t.setAll column text)) else none
  if table = s.runs.name then change s.runs fun t => { s with runs := t }
  else if table = s.iterations.name then change s.iterations fun t => { s with iterations := t }
  else if table = s.partitions.name then change s.partitions fun t => { s with partitions := t }
  else if table = s.times.name then change s.times fun t => { s with times := t }
  else none

end RelationalStore

end Regression
