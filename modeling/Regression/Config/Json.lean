import Regression.Config.Settings
import Regression.Json.Basic

/-!
# Settings as JSON

Each group of settings is an object under the name it has in configurations.
-/

namespace Regression

def ValueRanges.toJson (r : ValueRanges) : Json :=
  .object [("min_int", .int r.minInt.toInt), ("max_int", .int r.maxInt.toInt),
    ("min_long", .int r.minLong.toInt), ("max_long", .int r.maxLong.toInt),
    ("min_double", .real r.minDouble), ("max_double", .real r.maxDouble)]

def ExplorationSettings.toJson (s : ExplorationSettings) : Json :=
  .object [("bound", .int s.bound.toNat), ("ranges", s.ranges.toJson)]

def SolverSettings.toJson (s : SolverSettings) : Json :=
  .object [("timeout_ms", .int s.timeoutMs.toNat), ("binary", .text s.binary),
    ("parallelism", .int s.parallelism.toNat)]

def RefinementSettings.toJson (s : RefinementSettings) : Json :=
  .object [("heuristic", .text s.heuristic.name)]

def RunSettings.toJson (s : RunSettings) : Json :=
  .object [("tool", .text s.tool.name), ("timeout_secs", .int s.timeoutSecs.toNat),
    ("artifacts_dir", .text s.artifactsDir)]

/-- The groups of settings by their names. -/
def Settings.fields (s : Settings) : List (String × Json) :=
  [("exploration", s.exploration.toJson), ("solver", s.solver.toJson),
    ("refinement", s.refinement.toJson), ("run", s.run.toJson)]

def Settings.toJson (s : Settings) : Json := .object s.fields

end Regression
