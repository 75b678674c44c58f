import Regression.Json.Basic
import Regression.NameSet
import Regression.Tool

/-!
# Candidates for refinement

A unit is a computation that both versions or one of them contain, and that the exploration
replaced by an uninterpreted function of the same name. A refinement puts the computation back.
Only units of both versions that have not been refined before are candidates; the heuristic
selects among them and orders them.
-/

namespace Regression

structure AbstractedUnit where
  name : String
  inV1 : Bool := true
  inV2 : Bool := true
  hasLoop : Bool := false
  callSitesV1 : UInt32 := 0
  callSitesV2 : UInt32 := 0
  deriving DecidableEq, Repr, Inhabited

namespace AbstractedUnit

/-- Both versions contain the unit. -/
def isShared (u : AbstractedUnit) : Bool := u.inV1 && u.inV2

/-- The call sites of both versions; at most `2 ^ 32 - 1`. -/
def callSites (u : AbstractedUnit) : Nat :=
  min (u.callSitesV1.toNat + u.callSitesV2.toNat) (UInt32.size - 1)

def callCountsDiffer (u : AbstractedUnit) : Bool := u.callSitesV1 ≠ u.callSitesV2

def toJson (u : AbstractedUnit) : Json :=
  .object [("name", .text u.name), ("in_v1", .bool u.inV1), ("in_v2", .bool u.inV2),
    ("has_loop", .bool u.hasLoop), ("call_sites_v1", .int u.callSitesV1.toNat),
    ("call_sites_v2", .int u.callSitesV2.toNat)]

def ofJson? (j : Json) : Option AbstractedUnit := do
  let fields ← j.object?
  return {
    name := ← (← Json.field? fields "name").text?
    inV1 := ← Json.fieldOr fields "in_v1" true Json.bool?
    inV2 := ← Json.fieldOr fields "in_v2" true Json.bool?
    hasLoop := ← Json.fieldOr fields "has_loop" false Json.bool?
    callSitesV1 := ← Json.fieldOr fields "call_sites_v1" 0 Json.uint32?
    callSitesV2 := ← Json.fieldOr fields "call_sites_v2" 0 Json.uint32? }

end AbstractedUnit

/-- The units abstracted in one iteration, in the order of their declarations. -/
abbrev AbstractionSummary := List AbstractedUnit

namespace AbstractionSummary

def shared (units : AbstractionSummary) : List AbstractedUnit :=
  units.filter AbstractedUnit.isShared

def get? (units : AbstractionSummary) (name : String) : Option AbstractedUnit :=
  units.find? (·.name = name)

end AbstractionSummary

namespace Heuristic

/-- Whether a unit comes before another one at the latest: units whose number of calls differs
between the versions first, then loop-free ones, then those with fewer call sites, as far as the
heuristic looks at these. -/
def le (h : Heuristic) (u v : AbstractedUnit) : Bool :=
  let diverges (u : AbstractedUnit) := h.usesDivergence && !u.callCountsDiffer
  let loops (u : AbstractedUnit) := h.usesShape && u.hasLoop
  let sites (u : AbstractedUnit) := if h.usesShape then u.callSites else 0
  if diverges u ≠ diverges v then diverges v
  else if loops u ≠ loops v then loops v
  else sites u ≤ sites v

/-- The shared units that are not refined yet. A heuristic that looks at occurrences drops those
that do not occur in inconclusive partitions, unless none does. -/
def eligible (h : Heuristic) (units : AbstractionSummary) (refined inconclusive : NameSet) :
    List AbstractedUnit :=
  let unrefined := units.shared.filter (·.name ∉ refined)
  let occurring := unrefined.filter (·.name ∈ inconclusive)
  if h.usesOccurrence && !occurring.isEmpty then occurring else unrefined

/-- The candidates, best first; equally good ones in the order of declaration. -/
def candidates (h : Heuristic) (units : AbstractionSummary) (refined inconclusive : NameSet) :
    List AbstractedUnit :=
  (h.eligible units refined inconclusive).mergeSort h.le

/-- The unit that is refined next. -/
def select? (h : Heuristic) (units : AbstractionSummary) (refined inconclusive : NameSet) :
    Option AbstractedUnit :=
  (h.candidates units refined inconclusive).head?

end Heuristic

end Regression
