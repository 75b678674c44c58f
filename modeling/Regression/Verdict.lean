import Regression.Duration
import Regression.Failure
import Regression.Store.Record

/-!
# Verdicts on partitions

A verdict gathers what was found out about one partition: the answers to its queries and some
facts about its expressions. The facts that decide a classification can be taken from a verdict or
from the record that was made of it.

`PartitionFacts.classify` weighs them. Failures come before partial results, except that a path
that is not taken needs nothing else. Equal results are certain only if no uninterpreted function
restricts the path, different results only if no uninterpreted function occurs or if the results
cannot agree either.
-/

namespace Regression

structure Verdict where
  index : UInt32
  pcStatus : Option Status := none
  neqStatus : Option Status := none
  eqStatus : Option Status := none
  hasUifPc : Bool := false
  hasUifV1 : Bool := false
  hasUifV2 : Bool := false
  constraintCount : UInt32 := 0
  depthLimited : Bool := false
  /-- Why a query could not be asked or answered. -/
  error : Option String := none
  runtime : Duration := .zero
  deriving DecidableEq, Repr

namespace Verdict

def hasUif (v : Verdict) : Bool := v.hasUifPc || v.hasUifV1 || v.hasUifV2

def isError (v : Verdict) : Bool := v.error.isSome

end Verdict

/-- Everything that a classification depends on. -/
structure PartitionFacts where
  isMissing : Bool := false
  isBaseToolMissing : Bool := false
  isError : Bool := false
  isTimeout : Bool := false
  isDepthLimited : Bool := false
  pcStatus : Option Status := none
  neqStatus : Option Status := none
  eqStatus : Option Status := none
  hasUifPc : Bool := false
  hasUifV1 : Bool := false
  hasUifV2 : Bool := false
  deriving DecidableEq, Repr

namespace PartitionFacts

def hasUif (f : PartitionFacts) : Bool := f.hasUifPc || f.hasUifV1 || f.hasUifV2

/-- The classification of a path that may be taken and was analysed completely. -/
def compare (f : PartitionFacts) : Except Precondition Classification :=
  match f.neqStatus with
  | none => .error .neqStatus
  | some .unsat => .ok (if f.hasUifPc then .maybeEq else .eq)
  | some .sat =>
    if !f.hasUif then .ok .neq
    else
      match f.eqStatus with
      | some .unsat => .ok .neq
      | some _ => .ok .maybeNeq
      | none => .error .eqStatus
  | some .unknown => .ok .unknown

def classify (f : PartitionFacts) : Except Precondition Classification :=
  if f.isMissing then .ok .missing
  else if f.isBaseToolMissing then .ok .baseToolMissing
  else if f.pcStatus = some .unsat then .ok .unreachable
  else if f.isError then .ok .error
  else if f.isTimeout then .ok .timeout
  else if f.isDepthLimited then .ok .depthLimited
  else f.compare

def ofVerdict (v : Verdict) : PartitionFacts :=
  { isError := v.isError
    isDepthLimited := v.depthLimited
    pcStatus := v.pcStatus
    neqStatus := v.neqStatus
    eqStatus := v.eqStatus
    hasUifPc := v.hasUifPc
    hasUifV1 := v.hasUifV1
    hasUifV2 := v.hasUifV2 }

/-- The facts that a record keeps. What it does not know counts as absent. -/
def ofRecord (p : PartitionRecord) : PartitionFacts :=
  { isError := hasText p.errors
    isTimeout := p.hasTimedOut.getD false
    isDepthLimited := p.isDepthLimited.getD false
    pcStatus := p.pcStatus
    neqStatus := p.neqStatus
    eqStatus := p.eqStatus
    hasUifPc := p.hasUifPc.getD false
    hasUifV1 := p.hasUifV1.getD false
    hasUifV2 := p.hasUifV2.getD false }

end PartitionFacts

def Verdict.classify (v : Verdict) : Except Precondition Classification :=
  (PartitionFacts.ofVerdict v).classify

end Regression
