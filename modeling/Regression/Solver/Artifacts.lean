import Regression.Files
import Regression.Solver.Query

/-!
# Artifacts of queries

Every query that was answered can be kept in files: its script, the answer, and the model if there
is one. The files of an iteration share a directory, and their names start with the partition and
the kind of the query.
-/

namespace Regression

structure RecordedQuery where
  key : QueryKey
  query : Query
  answer : Answer
  deriving DecidableEq, Repr

namespace RecordedQuery

/-- Records in the order of their keys; those with the same key in the order of recording. -/
def sorted (records : List RecordedQuery) : List RecordedQuery :=
  records.mergeSort fun r r' => r.key.le r'.key

/-- The directory for the artifacts of an iteration. -/
def directory (root : String) (iteration : UInt32) : String :=
  joinPath root ("iteration-" ++ toString iteration.toNat)

/-- The names and texts of the artifacts of one query. -/
def artifacts (r : RecordedQuery) : List (String × String) :=
  let file (ending text : String) := (r.key.stem ++ ending, text)
  [file "-query.smt2" r.query.script, file "-answer.txt" r.answer.text] ++
    match r.answer.model with
    | some model => [file "-model.txt" model.raw]
    | none => []

end RecordedQuery

/-- Write the artifacts of a query. -/
def FileWork.keep (root : String) (r : RecordedQuery) : FileWork Unit := do
  let directory := RecordedQuery.directory root r.key.iteration
  makeDirectories directory
  r.artifacts.forM fun (name, text) => write (joinPath directory name) text

end Regression
