import Regression.Json.Basic
import Regression.Store.Error
import Regression.Timestamp.Reader

/-!
# Records

What is kept about a run: the run itself, its iterations, the partitions of each iteration, and
the times it took. A record is named by its first fields, its key; the other fields are filled in
when they become known, and are missing until then.

A record that is classified as an error has to say which.
-/

namespace Regression

structure PartitionRecord where
  benchmark : String
  tool : String
  iteration : UInt32
  partition : UInt32
  result : Option Classification := none
  pcStatus : Option Status := none
  neqStatus : Option Status := none
  eqStatus : Option Status := none
  hasUifPc : Option Bool := none
  hasUifV1 : Option Bool := none
  hasUifV2 : Option Bool := none
  hasTimedOut : Option Bool := none
  isDepthLimited : Option Bool := none
  constraintCount : Option UInt32 := none
  /-- In seconds. -/
  runtime : Option Binary64 := none
  errors : Option String := none
  deriving DecidableEq, Repr, Inhabited

structure IterationRecord where
  benchmark : String
  tool : String
  iteration : UInt32
  result : Option Classification := none
  hasTimedOut : Option Bool := none
  isDepthLimited : Option Bool := none
  hasUif : Option Bool := none
  partitionCount : Option UInt32 := none
  /-- In seconds. -/
  runtime : Option Binary64 := none
  errors : Option String := none
  deriving DecidableEq, Repr, Inhabited

structure RunRecord where
  benchmark : String
  tool : String
  result : Option Classification := none
  hasTimedOut : Option Bool := none
  isDepthLimited : Option Bool := none
  hasUif : Option Bool := none
  canIterate : Option Bool := none
  iterationCount : Option UInt32 := none
  /-- In seconds. -/
  runtime : Option Binary64 := none
  errors : Option String := none
  startedAt : Timestamp
  deriving DecidableEq, Repr, Inhabited

/-- The time that one step of a run took. -/
structure TimeRecord where
  benchmark : String
  tool : String
  topic : String
  /-- What of the topic was done; empty for the whole topic. -/
  task : String
  /-- In seconds. -/
  runtime : Binary64
  step : UInt32
  isMissing : Bool
  deriving DecidableEq, Repr, Inhabited

/-! ## Validity -/

/-- Whether there is a text that is not blank. -/
def hasText (errors : Option String) : Bool := errors.any (!Text.isBlankText ·)

def requireErrorText (what : String) (result : Option Classification) (errors : Option String) :
    Except StorageError Unit :=
  if result = some .error && !hasText errors then .error (.missingErrorText what) else .ok ()

namespace PartitionRecord

/-- The record that only says that there is such a partition. -/
def indexOnly (benchmark tool : String) (iteration partition : UInt32) : PartitionRecord :=
  { benchmark, tool, iteration, partition }

/-- Whether a result or the path condition contains an uninterpreted function; not known while
none of the three parts is known. -/
def hasUif (p : PartitionRecord) : Option Bool :=
  match p.hasUifPc, p.hasUifV1, p.hasUifV2 with
  | none, none, none => none
  | pc, v1, v2 => some (pc == some true || v1 == some true || v2 == some true)

def isClassified (p : PartitionRecord) : Bool := p.result.isSome

def validate (p : PartitionRecord) : Except StorageError Unit :=
  match p.result.filter Classification.isRunLevelOnly with
  | some result => .error (.runLevelPartition p.partition result)
  | none => requireErrorText "Partition" p.result p.errors

end PartitionRecord

namespace IterationRecord

/-- The record that only says that there is such an iteration. -/
def started (benchmark tool : String) (iteration : UInt32) : IterationRecord :=
  { benchmark, tool, iteration }

def validate (it : IterationRecord) : Except StorageError Unit :=
  requireErrorText "Iteration" it.result it.errors

end IterationRecord

namespace RunRecord

/-- The record of a run that has just begun. -/
def started (benchmark tool : String) (startedAt : Timestamp) : RunRecord :=
  { benchmark, tool, startedAt }

def validate (run : RunRecord) : Except StorageError Unit :=
  requireErrorText "Run" run.result run.errors

end RunRecord

/-! ## Records as JSON -/

namespace Json

def ofOption {α : Type} (encode : α → Json) : Option α → Json
  | some a => encode a
  | none => .null

def ofUInt32 (n : UInt32) : Json := .int n.toNat

/-- A number that has a JSON form, or `null`. -/
def ofReal (x : Binary64) : Json := if x.isFinite then .real x else .null

def ofClassification (c : Classification) : Json := .text c.name

def ofStatus (s : Status) : Json := .text s.name

def classification? (j : Json) : Option Classification := do Classification.ofName? (← j.name?)

def status? (j : Json) : Option Status := do Status.ofName? (← j.name?)

def timestamp? (j : Json) : Option Timestamp := do Timestamp.parse? (← j.text?)

end Json

open Json

namespace PartitionRecord

def toJson (p : PartitionRecord) : Json :=
  .object [("benchmark", .text p.benchmark), ("tool", .text p.tool),
    ("iteration", ofUInt32 p.iteration), ("partition", ofUInt32 p.partition),
    ("result", ofOption ofClassification p.result), ("pc_status", ofOption ofStatus p.pcStatus),
    ("neq_status", ofOption ofStatus p.neqStatus), ("eq_status", ofOption ofStatus p.eqStatus),
    ("has_uif_pc", ofOption .bool p.hasUifPc), ("has_uif_v1", ofOption .bool p.hasUifV1),
    ("has_uif_v2", ofOption .bool p.hasUifV2), ("has_timed_out", ofOption .bool p.hasTimedOut),
    ("is_depth_limited", ofOption .bool p.isDepthLimited),
    ("constraint_count", ofOption ofUInt32 p.constraintCount),
    ("runtime", ofOption ofReal p.runtime), ("errors", ofOption .text p.errors)]

def ofJson? (j : Json) : Option PartitionRecord := do
  let fields ← j.object?
  return {
    benchmark := ← (← field? fields "benchmark").text?
    tool := ← (← field? fields "tool").text?
    iteration := ← (← field? fields "iteration").uint32?
    partition := ← (← field? fields "partition").uint32?
    result := ← nullableField? fields "result" classification?
    pcStatus := ← nullableField? fields "pc_status" status?
    neqStatus := ← nullableField? fields "neq_status" status?
    eqStatus := ← nullableField? fields "eq_status" status?
    hasUifPc := ← nullableField? fields "has_uif_pc" bool?
    hasUifV1 := ← nullableField? fields "has_uif_v1" bool?
    hasUifV2 := ← nullableField? fields "has_uif_v2" bool?
    hasTimedOut := ← nullableField? fields "has_timed_out" bool?
    isDepthLimited := ← nullableField? fields "is_depth_limited" bool?
    constraintCount := ← nullableField? fields "constraint_count" uint32?
    runtime := ← nullableField? fields "runtime" number?
    errors := ← nullableField? fields "errors" text? }

end PartitionRecord

namespace IterationRecord

def toJson (it : IterationRecord) : Json :=
  .object [("benchmark", .text it.benchmark), ("tool", .text it.tool),
    ("iteration", ofUInt32 it.iteration), ("result", ofOption ofClassification it.result),
    ("has_timed_out", ofOption .bool it.hasTimedOut),
    ("is_depth_limited", ofOption .bool it.isDepthLimited), ("has_uif", ofOption .bool it.hasUif),
    ("partition_count", ofOption ofUInt32 it.partitionCount),
    ("runtime", ofOption ofReal it.runtime), ("errors", ofOption .text it.errors)]

def ofJson? (j : Json) : Option IterationRecord := do
  let fields ← j.object?
  return {
    benchmark := ← (← field? fields "benchmark").text?
    tool := ← (← field? fields "tool").text?
    iteration := ← (← field? fields "iteration").uint32?
    result := ← nullableField? fields "result" classification?
    hasTimedOut := ← nullableField? fields "has_timed_out" bool?
    isDepthLimited := ← nullableField? fields "is_depth_limited" bool?
    hasUif := ← nullableField? fields "has_uif" bool?
    partitionCount := ← nullableField? fields "partition_count" uint32?
    runtime := ← nullableField? fields "runtime" number?
    errors := ← nullableField? fields "errors" text? }

end IterationRecord

namespace RunRecord

def toJson (run : RunRecord) : Json :=
  .object [("benchmark", .text run.benchmark), ("tool", .text run.tool),
    ("result", ofOption ofClassification run.result),
    ("has_timed_out", ofOption .bool run.hasTimedOut),
    ("is_depth_limited", ofOption .bool run.isDepthLimited),
    ("has_uif", ofOption .bool run.hasUif), ("can_iterate", ofOption .bool run.canIterate),
    ("iteration_count", ofOption ofUInt32 run.iterationCount),
    ("runtime", ofOption ofReal run.runtime), ("errors", ofOption .text run.errors),
    ("started_at", .text run.startedAt.text)]

def ofJson? (j : Json) : Option RunRecord := do
  let fields ← j.object?
  return {
    benchmark := ← (← field? fields "benchmark").text?
    tool := ← (← field? fields "tool").text?
    result := ← nullableField? fields "result" classification?
    hasTimedOut := ← nullableField? fields "has_timed_out" bool?
    isDepthLimited := ← nullableField? fields "is_depth_limited" bool?
    hasUif := ← nullableField? fields "has_uif" bool?
    canIterate := ← nullableField? fields "can_iterate" bool?
    iterationCount := ← nullableField? fields "iteration_count" uint32?
    runtime := ← nullableField? fields "runtime" number?
    errors := ← nullableField? fields "errors" text?
    startedAt := ← timestamp? (← field? fields "started_at") }

end RunRecord

namespace TimeRecord

def toJson (t : TimeRecord) : Json :=
  .object [("benchmark", .text t.benchmark), ("tool", .text t.tool), ("topic", .text t.topic),
    ("task", .text t.task), ("runtime", ofReal t.runtime), ("step", ofUInt32 t.step),
    ("is_missing", .bool t.isMissing)]

def ofJson? (j : Json) : Option TimeRecord := do
  let fields ← j.object?
  return {
    benchmark := ← (← field? fields "benchmark").text?
    tool := ← (← field? fields "tool").text?
    topic := ← (← field? fields "topic").text?
    task := ← (← field? fields "task").text?
    runtime := ← (← field? fields "runtime").number?
    step := ← (← field? fields "step").uint32?
    isMissing := ← (← field? fields "is_missing").bool? }

end TimeRecord

end Regression
