import Regression.Store.Memory
import Regression.Store.Relational

/-!
# Result stores

A store keeps its records in memory or in a relational database; both answer alike.
-/

namespace Regression

inductive ResultStore where
  | memory (store : MemoryStore)
  | relational (store : RelationalStore)
  deriving Repr, Inhabited

namespace ResultStore

def write : ResultStore → StoreWrite → Except StorageError ResultStore
  | .memory s, w => (s.write w).map .memory
  | .relational s, w => (s.write w).map .relational

def getRun (store : ResultStore) (benchmark tool : String) :
    Except StorageError (Option RunRecord) :=
  match store with
  | .memory s => .ok (s.getRun benchmark tool)
  | .relational s => s.getRun benchmark tool

def getIteration (store : ResultStore) (benchmark tool : String) (iteration : UInt32) :
    Except StorageError (Option IterationRecord) :=
  match store with
  | .memory s => .ok (s.getIteration benchmark tool iteration)
  | .relational s => s.getIteration benchmark tool iteration

def listIterations (store : ResultStore) (benchmark tool : String) :
    Except StorageError (List IterationRecord) :=
  match store with
  | .memory s => .ok (s.listIterations benchmark tool)
  | .relational s => s.listIterations benchmark tool

def listPartitions (store : ResultStore) (benchmark tool : String) (iteration : UInt32) :
    Except StorageError (List PartitionRecord) :=
  match store with
  | .memory s => .ok (s.listPartitions benchmark tool iteration)
  | .relational s => s.listPartitions benchmark tool iteration

def listTimes (store : ResultStore) (benchmark tool : String) :
    Except StorageError (List TimeRecord) :=
  match store with
  | .memory s => .ok (s.listTimes benchmark tool)
  | .relational s => s.listTimes benchmark tool

end ResultStore

end Regression
