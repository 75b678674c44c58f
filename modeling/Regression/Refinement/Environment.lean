import Regression.Files
import Regression.Oracle
import Regression.Refinement.Candidates
import Regression.Report
import Regression.Store.Write
import Regression.Timestamp

/-!
# The environment of a run

Everything that a run needs from outside: a clock, the instrumentation that prepares and refines
the versions, the exploration that delivers partitions, the desk that answers queries, the result
store, and the results file.

Work that may take long is given the deadline of the run, a reading of the clock. It either ends
before, or is given up at the deadline without having had an effect.
-/

namespace Regression

/-- The result of work with a deadline. -/
inductive Raced (α : Type) where
  | done (result : α)
  /-- The deadline came first. -/
  | expired
  deriving Repr

structure Environment (m : Type → Type) where
  now : m Duration
  /-- The date, which is noted in the results only. -/
  today : m Timestamp
  inputExists : String → m Bool
  /-- Prepare both versions for an iteration, before the deadline. -/
  prepare : Duration → UInt32 → m (Raced (Except Failure Unit))
  /-- Begin the exploration of an iteration, before the deadline. -/
  start : Duration → UInt32 → m (Raced (Except Failure Unit))
  /-- The next partition, or `none` after the last one, before the deadline. -/
  next : Duration → m (Raced (Except Failure (Option Partition)))
  /-- The units abstracted in the iteration that was begun last. -/
  summary : m AbstractionSummary
  /-- Put a unit back into both versions, before the deadline. -/
  expand : Duration → AbstractedUnit → m (Raced (Except Failure Unit))
  /-- Whether the deadline has come. -/
  isExpired : Duration → m Bool
  /-- Begin a batch of queries: nothing is cancelled. -/
  openBatch : m Unit
  /-- End a batch of queries, before the deadline: why it was aborted, if it was. To the partitions
  of an aborted batch the desk may do anything, but nobody learns their verdicts. -/
  closeBatch : Duration → m (Raced (Except String Unit))
  /-- The desk, at which queries are cancelled when the deadline comes. -/
  desk : Duration → QueryDesk m
  write : StoreWrite → m (Except StorageError Unit)
  /-- Remove a results file, if it exists. -/
  resetResults : String → m (Except FileError Unit)
  /-- Add a text to the end of a results file, which is made with its directory if needed. -/
  appendResults : String → String → m (Except FileError Unit)

end Regression
