import Regression.Config.Settings
import Regression.Yaml.Fields
import Regression.Yaml.Written

/-!
# Settings in documents

A configuration is a YAML document with a version and up to four sections, one for each group of
settings. A setting that a section does not mention has its default, as do all settings of a section
that is missing or null. Unknown and repeated names are refused.

`Settings.ofText` reads a configuration and `Settings.text` writes one with all settings.
-/

namespace Regression

open Yaml (Document Fields)

/-- The form of the configurations that are understood. -/
def supportedVersion : UInt32 := 1

namespace Settings

/-! ## Reading -/

def rangesOf? (s : Fields) : Option ValueRanges := do
  let d : ValueRanges := {}
  return {
    minInt := ← s.int64Or "min_int" d.minInt
    maxInt := ← s.int64Or "max_int" d.maxInt
    minLong := ← s.int64Or "min_long" d.minLong
    maxLong := ← s.int64Or "max_long" d.maxLong
    minDouble := ← s.realOr "min_double" d.minDouble
    maxDouble := ← s.realOr "max_double" d.maxDouble }

def explorationOf? (s : Fields) : Option ExplorationSettings := do
  let d : ExplorationSettings := {}
  let names := ["min_int", "max_int", "min_long", "max_long", "min_double", "max_double"]
  return {
    bound := ← s.uint32Or "bound" d.bound
    ranges := ← s.groupOr "ranges" d.ranges false names rangesOf? }

def solverOf? (processors : UInt64) (s : Fields) : Option SolverSettings := do
  let d : SolverSettings := { parallelism := processors }
  return {
    timeoutMs := ← s.uint64Or "timeout_ms" d.timeoutMs
    binary := ← s.textOr "binary" d.binary
    parallelism := ← s.uint64Or "parallelism" d.parallelism }

def refinementOf? (s : Fields) : Option RefinementSettings := do
  let d : RefinementSettings := {}
  let heuristic ← s.scalarOr "heuristic" d.heuristic fun n => n.name?.bind Heuristic.ofName?
  return { heuristic }

def runOf? (s : Fields) : Option RunSettings := do
  let d : RunSettings := {}
  return {
    tool := ← s.scalarOr "tool" d.tool fun n => n.name?.bind Tool.ofName?
    timeoutSecs := ← s.uint64Or "timeout_secs" d.timeoutSecs
    artifactsDir := ← s.textOr "artifacts_dir" d.artifactsDir }

/-- The version and the settings of a document, on a machine with so many processors. The version
has to be there. -/
def ofDocument? (processors : UInt64) (doc : Document) : Option (UInt32 × Settings) := do
  let names := ["version", "exploration", "solver", "refinement", "run"]
  let s ← Fields.ofNode? doc names doc.root
  if !s.has "version" then none
  let version ← s.uint32Or "version" supportedVersion
  let d := default processors
  let exploration ← s.groupOr "exploration" d.exploration true ["bound", "ranges"] explorationOf?
  let solver ← s.groupOr "solver" d.solver true ["timeout_ms", "binary", "parallelism"]
    (solverOf? processors)
  let refinement ← s.groupOr "refinement" d.refinement true ["heuristic"] refinementOf?
  let run ← s.groupOr "run" d.run true ["tool", "timeout_secs", "artifacts_dir"] runOf?
  return (version, { exploration, solver, refinement, run })

/-- The settings in a text. The version is looked at before the settings are validated. -/
def ofText (processors : UInt64) (text : String) : Except ConfigError Settings :=
  match (Yaml.Document.ofText? text).bind (ofDocument? processors) with
  | none => .error .malformed
  | some (version, settings) =>
    if version ≠ supportedVersion then .error (.unsupportedVersion version)
    else settings.validate.map fun _ => settings

/-- The settings in a file with the given bytes, if there is such a file. -/
def ofFile (processors : UInt64) (content : Except FileError ByteArray) :
    Except ConfigError Settings :=
  match content with
  | .error e => .error (.unreadable e.message)
  | .ok bytes =>
    match String.fromUTF8? bytes with
    | none => .error (.unreadable "stream did not contain valid UTF-8")
    | some text => ofText processors text

/-! ## Writing -/

/-- The line that starts a section. -/
def heading (column : Nat) (name : String) : String :=
  String.ofList (List.replicate column ' ') ++ name ++ ":\n"

def number (n : Nat) : String := toString n

def text (s : Settings) : String :=
  let entry := Yaml.writtenEntry
  let ranges := s.exploration.ranges
  String.join [
    entry 0 "version" (number supportedVersion.toNat),
    heading 0 "exploration",
    entry 2 "bound" (number s.exploration.bound.toNat),
    heading 2 "ranges",
    entry 4 "min_int" (intText ranges.minInt),
    entry 4 "max_int" (intText ranges.maxInt),
    entry 4 "min_long" (intText ranges.minLong),
    entry 4 "max_long" (intText ranges.maxLong),
    entry 4 "min_double" (Yaml.realText ranges.minDouble),
    entry 4 "max_double" (Yaml.realText ranges.maxDouble),
    heading 0 "solver",
    entry 2 "timeout_ms" (number s.solver.timeoutMs.toNat),
    entry 2 "binary" (Yaml.written 4 s.solver.binary),
    entry 2 "parallelism" (number s.solver.parallelism.toNat),
    heading 0 "refinement",
    entry 2 "heuristic" s.refinement.heuristic.name,
    heading 0 "run",
    entry 2 "tool" s.run.tool.name,
    entry 2 "timeout_secs" (number s.run.timeoutSecs.toNat),
    entry 2 "artifacts_dir" (Yaml.written 4 s.run.artifactsDir)]

end Settings

end Regression
