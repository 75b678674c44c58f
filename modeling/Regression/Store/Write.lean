import Regression.Store.Record

/-!
# Writes

The changes that are made to a result store. A write puts one record under its key, in the place
of an older one, or removes everything that is kept about a run.
-/

namespace Regression

inductive StoreWrite where
  | run (record : RunRecord)
  | iteration (record : IterationRecord)
  | partition (record : PartitionRecord)
  | time (record : TimeRecord)
  | deleteRun (benchmark tool : String)
  deriving DecidableEq, Repr

namespace StoreWrite

/-- A record that contradicts itself is refused. -/
def validate : StoreWrite → Except StorageError Unit
  | .run record => record.validate
  | .iteration record => record.validate
  | .partition record => record.validate
  | .time _ | .deleteRun .. => .ok ()

end StoreWrite

/-! ## Keys -/

def RunRecord.key (r : RunRecord) : String × String := (r.benchmark, r.tool)

def IterationRecord.key (r : IterationRecord) : String × String × UInt32 :=
  (r.benchmark, r.tool, r.iteration)

def PartitionRecord.key (r : PartitionRecord) : String × String × UInt32 × UInt32 :=
  (r.benchmark, r.tool, r.iteration, r.partition)

def TimeRecord.key (r : TimeRecord) : String × String × String × String :=
  (r.benchmark, r.tool, r.topic, r.task)

/-- Put a record under its key, in the place of an older one. -/
def putUnder {α κ : Type} [DecidableEq κ] (key : α → κ) (record : α) (records : List α) : List α :=
  records.filter (key · ≠ key record) ++ [record]

end Regression
