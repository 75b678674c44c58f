import Regression.Store.Write

/-!
# Stores in memory

The records of all runs, each under its key. What is listed comes in ascending order of iterations
and partitions, and times in the order of their steps.
-/

namespace Regression

structure MemoryStore where
  runs : List RunRecord := []
  iterations : List IterationRecord := []
  partitions : List PartitionRecord := []
  times : List TimeRecord := []
  deriving Repr, Inhabited

namespace MemoryStore

def empty : MemoryStore := {}

/-- Carry out a write, without asking whether the record is valid. -/
def put (s : MemoryStore) : StoreWrite → MemoryStore
  | .run r => { s with runs := putUnder RunRecord.key r s.runs }
  | .iteration r => { s with iterations := putUnder IterationRecord.key r s.iterations }
  | .partition r => { s with partitions := putUnder PartitionRecord.key r s.partitions }
  | .time r => { s with times := putUnder TimeRecord.key r s.times }
  | .deleteRun benchmark tool =>
    { runs := s.runs.filter fun r => (r.benchmark, r.tool) ≠ (benchmark, tool)
      iterations := s.iterations.filter fun r => (r.benchmark, r.tool) ≠ (benchmark, tool)
      partitions := s.partitions.filter fun r => (r.benchmark, r.tool) ≠ (benchmark, tool)
      times := s.times.filter fun r => (r.benchmark, r.tool) ≠ (benchmark, tool) }

def write (s : MemoryStore) (w : StoreWrite) : Except StorageError MemoryStore := do
  w.validate
  return s.put w

/-! ## Reading -/

def getRun (s : MemoryStore) (benchmark tool : String) : Option RunRecord :=
  s.runs.find? (·.key = (benchmark, tool))

def getIteration (s : MemoryStore) (benchmark tool : String) (iteration : UInt32) :
    Option IterationRecord :=
  s.iterations.find? (·.key = (benchmark, tool, iteration))

def listIterations (s : MemoryStore) (benchmark tool : String) : List IterationRecord :=
  (s.iterations.filter fun r => (r.benchmark, r.tool) = (benchmark, tool)).mergeSort
    fun r r' => r.iteration ≤ r'.iteration

def listPartitions (s : MemoryStore) (benchmark tool : String) (iteration : UInt32) :
    List PartitionRecord :=
  (s.partitions.filter fun r =>
      (r.benchmark, r.tool, r.iteration) = (benchmark, tool, iteration)).mergeSort
    fun r r' => r.partition ≤ r'.partition

/-- By step; times of the same step by topic and task. -/
def timeLe (r r' : TimeRecord) : Bool :=
  r.step < r'.step ||
    (r.step = r'.step && (r.topic < r'.topic || (r.topic = r'.topic && r.task ≤ r'.task)))

def listTimes (s : MemoryStore) (benchmark tool : String) : List TimeRecord :=
  (s.times.filter fun r => (r.benchmark, r.tool) = (benchmark, tool)).mergeSort timeLe

/-- The number of partitions of all runs. -/
def partitionCount (s : MemoryStore) : Nat := s.partitions.length

end MemoryStore

end Regression
