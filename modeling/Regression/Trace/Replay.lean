import Regression.Failure
import Regression.Json.Reader
import Regression.Trace.Basic

/-!
# Replays

A replay stands in for an exploration. Each start looks for the entry of the trace that belongs to
the units expanded so far, and its partitions are then delivered one after the other.
-/

namespace Regression

structure Replay where
  trace : Trace
  expanded : NameSet := .empty
  /-- The entry that was started last. -/
  current : Option TraceEntry := none
  /-- The partitions of that entry which have not been delivered. -/
  pending : List Partition := []
  deriving Repr

namespace Replay

/-- The first entry for the expanded units; without one, the entry in the place of the iteration;
without that, the last entry. -/
def entryFor (r : Replay) (iteration : UInt32) : Option TraceEntry :=
  (r.trace.entries.find? (·.expanded = r.expanded)).or <|
    (r.trace.entries[iteration.toNat - 1]?).or r.trace.entries.getLast?

def start (r : Replay) (iteration : UInt32) : Except AnalysisFault Replay :=
  match r.entryFor iteration with
  | some entry => .ok { r with current := some entry, pending := entry.partitions }
  | none => .error .emptyTrace

/-- The next partition, or `none` after the last one. -/
def next (r : Replay) : Except AnalysisFault (Option Partition × Replay) :=
  match r.current, r.pending with
  | none, _ => .error .notStarted
  | some _, [] => .ok (none, r)
  | some _, p :: rest => .ok (some p, { r with pending := rest })

/-- The units abstracted in the entry that was started last. -/
def summary (r : Replay) : AbstractionSummary :=
  match r.current with
  | some entry => entry.summary
  | none => []

/-- Note that a unit is expanded. Some entry of the trace has to abstract it. -/
def expand (r : Replay) (unit : String) : Except AnalysisFault Replay :=
  if unit ∈ r.trace.unitNames then .ok { r with expanded := r.expanded.insert unit }
  else .error (.notInTrace unit)

/-- A replay of a trace given as text. -/
def ofText? (text : String) : Option Replay := do
  return { trace := ← Trace.ofJson? (← Json.ofText? text) }

end Replay

end Regression
