import Regression.Config.Error
import Regression.Duration

/-!
# Settings

What a user can set for a run, in four groups. Everything has a default; the number of partitions
that are checked together is the number of processors unless it is set.

`Settings.validate` checks the groups in their order and reports the first setting that makes no
sense. Groups without such settings are not checked.
-/

namespace Regression

/-- The values that inputs may take. -/
structure ValueRanges where
  minInt : Int64 := -100
  maxInt : Int64 := 100
  minLong : Int64 := -100
  maxLong : Int64 := 100
  minDouble : Binary64 := .ofInt (-100)
  maxDouble : Binary64 := .ofInt 100
  deriving DecidableEq, Repr

/-- What is passed on to the exploration. -/
structure ExplorationSettings where
  /-- How often loops are unrolled. -/
  bound : UInt32 := 5
  ranges : ValueRanges := {}
  deriving DecidableEq, Repr

structure SolverSettings where
  /-- The time that the solver may spend on one query. -/
  timeoutMs : UInt64 := 300000
  binary : String := "z3"
  /-- How many partitions are checked together. -/
  parallelism : UInt64
  deriving DecidableEq, Repr

structure RefinementSettings where
  heuristic : Heuristic := .h123
  deriving DecidableEq, Repr

structure RunSettings where
  tool : Tool := .cegar
  /-- The time that the run may take. -/
  timeoutSecs : UInt64 := 3600
  artifactsDir : String := "artifacts"
  deriving DecidableEq, Repr

structure Settings where
  exploration : ExplorationSettings := {}
  solver : SolverSettings
  refinement : RefinementSettings := {}
  run : RunSettings := {}
  deriving DecidableEq, Repr

namespace SolverSettings

def timeout (s : SolverSettings) : Duration := .ofMilliseconds s.timeoutMs.toNat

/-- When a solver that does not stop by itself is given up: two seconds after a tenth more than
its time. -/
def patience (s : SolverSettings) : Duration :=
  s.timeout + ⟨s.timeout.nanoseconds / 10⟩ + .ofSeconds 2

end SolverSettings

namespace RunSettings

def timeout (s : RunSettings) : Duration := .ofSeconds s.timeoutSecs.toNat

end RunSettings

/-- The default settings on a machine with so many processors. -/
def Settings.default (processors : UInt64) : Settings := { solver := { parallelism := processors } }

/-- The name under which results are stored. -/
def Settings.label (s : Settings) : String := s.run.tool.label s.refinement.heuristic

/-! ## Validation -/

/-- The text of a whole number. -/
def intText (i : Int64) : String := toString i.toInt

/-- Refuse a number outside of an interval. -/
def requireWithin (field : String) (low high value : Nat) (hint : String) :
    Except ConfigError Unit :=
  if low ≤ value && value ≤ high then .ok ()
  else .error (.outOfRange field (toString value) (toString low) (toString high) hint)

namespace ValueRanges

def validate (r : ValueRanges) : Except ConfigError Unit :=
  if r.maxInt < r.minInt then
    .error (.invertedBounds "ranges.int" (intText r.minInt) (intText r.maxInt))
  else if r.maxLong < r.minLong then
    .error (.invertedBounds "ranges.long" (intText r.minLong) (intText r.maxLong))
  else if !r.minDouble.le r.maxDouble then
    .error (.invertedBounds "ranges.double" (r.minDouble.format .plain) (r.maxDouble.format .plain))
  else .ok ()

end ValueRanges

def ExplorationSettings.validate (s : ExplorationSettings) : Except ConfigError Unit := do
  requireWithin "exploration.bound" 1 10000 s.bound.toNat
    "The exploration bound must allow at least one loop unrolling"
  s.ranges.validate

def SolverSettings.validate (s : SolverSettings) : Except ConfigError Unit := do
  requireWithin "solver.timeout_ms" 1 86400000 s.timeoutMs.toNat
    "A zero timeout makes every query UNKNOWN"
  requireWithin "solver.parallelism" 1 1024 s.parallelism.toNat
    "Use 1 to check partitions one at a time"
  if Text.isBlankText s.binary then throw .noSolver

def RunSettings.validate (s : RunSettings) : Except ConfigError Unit :=
  requireWithin "run.timeout_secs" 1 (UInt64.size - 1) s.timeoutSecs.toNat
    "The watchdog would fire before the first iteration"

def Settings.validate (s : Settings) : Except ConfigError Unit := do
  s.exploration.validate
  s.solver.validate
  s.run.validate

end Regression
