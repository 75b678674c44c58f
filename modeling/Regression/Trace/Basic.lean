import Regression.Partition
import Regression.Refinement.Candidates

/-!
# Exploration traces

A trace records what an exploration found: for each set of expanded units, the units that were
abstracted then and the partitions that were explored.
-/

namespace Regression

/-- What was found for one set of expanded units. -/
structure TraceEntry where
  expanded : NameSet := .empty
  summary : AbstractionSummary := []
  partitions : List Partition := []
  deriving Repr, Inhabited

structure Trace where
  entries : List TraceEntry := []
  deriving Repr, Inhabited

namespace Json

def ofNames (names : NameSet) : Json := .array (names.toList.map .text)

/-- An array of names, in any order and with repetitions. -/
def names? (j : Json) : Option NameSet := do
  return .ofList (← (← j.array?).mapM text?)

/-- An array whose items are decoded one by one. -/
def listOf? {α : Type} (decode : Json → Option α) (j : Json) : Option (List α) := do
  (← j.array?).mapM decode

end Json

namespace TraceEntry

def toJson (entry : TraceEntry) : Json :=
  .object [("expanded", .ofNames entry.expanded),
    ("summary", .array (entry.summary.map AbstractedUnit.toJson)),
    ("partitions", .array (entry.partitions.map Partition.toJson))]

def ofJson? (j : Json) : Option TraceEntry := do
  let fields ← j.object?
  return {
    expanded := ← Json.fieldOr fields "expanded" .empty Json.names?
    summary := ← Json.fieldOr fields "summary" [] (Json.listOf? AbstractedUnit.ofJson?)
    partitions := ← Json.fieldOr fields "partitions" [] (Json.listOf? Partition.ofJson?) }

end TraceEntry

namespace Trace

def toJson (t : Trace) : Json :=
  .object [("iterations", .array (t.entries.map TraceEntry.toJson))]

def ofJson? (j : Json) : Option Trace := do
  let fields ← j.object?
  return { entries := ← Json.listOf? TraceEntry.ofJson? (← Json.field? fields "iterations") }

/-- The names of all units that some entry abstracts. -/
def unitNames (t : Trace) : List String := t.entries.flatMap fun entry => entry.summary.map (·.name)

end Trace

end Regression
