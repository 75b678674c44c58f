import Regression.Script.Basic

/-!
# Locations aside

Expressions are compared without their locations. `Expr.unlocated` takes all locations away, and
two expressions are equal in this sense just when nothing else is left of the one than of the other.

No analysis of an expression reads a location: what it finds out about an expression it finds out
about the expression without locations as well. This is shown of each of them along its recursion.

* `Expr.beq_iff`: equal expressions differ in locations at most.
* `Expr.sort?_unlocated`, `Expr.term_unlocated`, `Expr.display_unlocated`: locations play no part in
  sorts, terms and the text in messages.
* `Script.ofAssertions_unlocated`: nor do they in scripts and the reasons for which there is none.
-/

namespace Regression

open Script

namespace Expr

mutual

/-- The expression without its locations. -/
def unlocated : Expr → Expr
  | .const v => .const v
  | .var x s => .var x s
  | .binary op l r _ => .binary op (unlocated l) (unlocated r) none
  | .uif f s args => .uif f s (unlocatedArgs args)
  | .math f args => .math f (unlocatedArgs args)

def unlocatedArgs : List Expr → List Expr
  | [] => []
  | e :: es => unlocated e :: unlocatedArgs es

end

theorem unlocatedArgs_eq (es : List Expr) : unlocatedArgs es = es.map unlocated := by
  induction es with
  | nil => rw [unlocatedArgs, List.map_nil]
  | cons e es ih => rw [unlocatedArgs, ih, List.map_cons]

/-! ## Equality -/

mutual

theorem same_iff : ∀ (e e' : Expr), e.same e' = true ↔ e.unlocated = e'.unlocated
  | .const v, e' => by cases e' <;> simp [same, unlocated]
  | .var x s, e' => by cases e' <;> simp [same, unlocated]
  | .binary op l r location, e' => by
    cases e' with
    | binary op' l' r' location' =>
      simp [same, unlocated, same_iff l l', same_iff r r', and_assoc]
    | _ => simp [same, unlocated]
  | .uif f s args, e' => by
    cases e' with
    | uif f' s' args' => simp [same, unlocated, sameArgs_iff args args', and_assoc]
    | _ => simp [same, unlocated]
  | .math f args, e' => by
    cases e' with
    | math f' args' => simp [same, unlocated, sameArgs_iff args args']
    | _ => simp [same, unlocated]

theorem sameArgs_iff : ∀ (es es' : List Expr),
    sameArgs es es' = true ↔ unlocatedArgs es = unlocatedArgs es'
  | [], es' => by cases es' <;> simp [sameArgs, unlocatedArgs]
  | e :: es, es' => by
    cases es' with
    | nil => simp [sameArgs, unlocatedArgs]
    | cons e' es' => simp [sameArgs, unlocatedArgs, same_iff e e', sameArgs_iff es es']

end

/-- Two expressions are equal just when they differ in locations at most. -/
theorem beq_iff {e e' : Expr} : (e == e') = true ↔ e.unlocated = e'.unlocated := same_iff e e'

/-! ## Sorts -/

mutual

@[simp] theorem sort?_unlocated : ∀ e : Expr, e.unlocated.sort? = e.sort?
  | .const v => by rw [unlocated]
  | .var x s => by rw [unlocated]
  | .uif f s args => by rw [unlocated, sort?, sort?]
  | .math f args => by
    rw [unlocated, sort?, sort?, numericArgs_unlocatedArgs, unlocatedArgs_eq, List.length_map]
  | .binary op l r location => by
    rw [unlocated, sort?, sort?, sort?_unlocated l, sort?_unlocated r]

theorem numericArgs_unlocatedArgs (f : MathFunction) :
    ∀ es : List Expr, numericArgs f (unlocatedArgs es) = numericArgs f es
  | [] => by rw [unlocatedArgs]
  | e :: es => by
    rw [unlocatedArgs, numericArgs, numericArgs, sort?_unlocated e, numericArgs_unlocatedArgs f es]

end

theorem sorts?_unlocatedArgs (es : List Expr) : sorts? (unlocatedArgs es) = sorts? es := by
  rw [sorts?, sorts?, unlocatedArgs_eq, List.mapM_map]
  simp only [Function.comp_def, sort?_unlocated]

@[simp] theorem isCondition_unlocated (e : Expr) : e.unlocated.isCondition = e.isCondition := by
  rw [isCondition, isCondition, sort?_unlocated]

/-! ## Nodes and conjuncts -/

mutual

theorem nodes_unlocated : ∀ e : Expr, e.unlocated.nodes = e.nodes.map unlocated
  | .const v => by rw [unlocated, nodes, List.map_singleton, unlocated]
  | .var x s => by rw [unlocated, nodes, List.map_singleton, unlocated]
  | .binary op l r location => by
    rw [unlocated, nodes, nodes, nodes_unlocated l, nodes_unlocated r, List.map_cons, unlocated,
      List.map_append]
  | .uif f s args => by
    rw [unlocated, nodes, nodes, nodesOf_unlocatedArgs args, List.map_cons, unlocated]
  | .math f args => by
    rw [unlocated, nodes, nodes, nodesOf_unlocatedArgs args, List.map_cons, unlocated]

theorem nodesOf_unlocatedArgs :
    ∀ es : List Expr, nodesOf (unlocatedArgs es) = (nodesOf es).map unlocated
  | [] => by rw [unlocatedArgs, nodesOf, List.map_nil]
  | e :: es => by
    rw [unlocatedArgs, nodesOf, nodesOf, nodes_unlocated e, nodesOf_unlocatedArgs es,
      List.map_append]

end

theorem uifName?_unlocated (e : Expr) : e.unlocated.uifName? = e.uifName? := by
  cases e <;> rfl

theorem isUif_unlocated (e : Expr) : e.unlocated.isUif = e.isUif := by
  cases e <;> rfl

@[simp] theorem uifNames_unlocated (e : Expr) : e.unlocated.uifNames = e.uifNames := by
  rw [uifNames, uifNames, nodes_unlocated, List.filterMap_map]
  simp only [Function.comp_def, uifName?_unlocated]

@[simp] theorem hasUif_unlocated (e : Expr) : e.unlocated.hasUif = e.hasUif := by
  rw [hasUif, hasUif, nodes_unlocated, List.any_map]
  simp only [Function.comp_def, isUif_unlocated]

theorem conjuncts_unlocated : ∀ e : Expr, e.unlocated.conjuncts = e.conjuncts.map unlocated
  | .const v => by
    cases v with
    | bool b => cases b <;> rfl
    | int | real | string => rfl
  | .var .. | .uif .. | .math .. => rfl
  | .binary op l r location => by
    cases op with
    | and =>
      rw [unlocated, conjuncts, conjuncts, isCondition_unlocated, isCondition_unlocated,
        conjuncts_unlocated l, conjuncts_unlocated r, apply_ite (List.map unlocated),
        List.map_append, List.map_singleton, unlocated]
    | _ => rfl

@[simp] theorem constraintCount_unlocated (e : Expr) :
    e.unlocated.constraintCount = e.constraintCount := by
  rw [constraintCount, constraintCount, conjuncts_unlocated, List.length_map]

/-! ## Texts and terms -/

mutual

@[simp] theorem display_unlocated : ∀ e : Expr, e.unlocated.display = e.display
  | .const v => by rw [unlocated]
  | .var x s => by rw [unlocated]
  | .binary op l r location => by
    rw [unlocated, display, display, display_unlocated l, display_unlocated r]
  | .uif f s args => by rw [unlocated, display, display, displays_unlocatedArgs args]
  | .math f args => by rw [unlocated, display, display, displays_unlocatedArgs args]

theorem displays_unlocatedArgs : ∀ es : List Expr, displays (unlocatedArgs es) = displays es
  | [] => by rw [unlocatedArgs]
  | e :: es => by
    rw [unlocatedArgs, displays, displays, display_unlocated e, displays_unlocatedArgs es]

end

mutual

@[simp] theorem term_unlocated : ∀ e : Expr, e.unlocated.term = e.term
  | .const v => by rw [unlocated]
  | .var x s => by rw [unlocated]
  | .uif f s args => by rw [unlocated, term, term, terms_unlocatedArgs args]
  | .math f args => by
    have hsort : (math f (unlocatedArgs args)).sort? = (math f args).sort? := by
      simpa only [unlocated] using sort?_unlocated (.math f args)
    rw [unlocated, term, term, hsort, terms_unlocatedArgs args]
  | .binary op l r location => by
    rw [unlocated, term, term, term_unlocated l, term_unlocated r]

theorem terms_unlocatedArgs : ∀ es : List Expr, terms (unlocatedArgs es) = terms es
  | [] => by rw [unlocatedArgs]
  | e :: es => by rw [unlocatedArgs, terms, terms, term_unlocated e, terms_unlocatedArgs es]

end

mutual

theorem uses_unlocated : ∀ e : Expr, e.unlocated.uses = e.uses
  | .const v => by rw [unlocated]
  | .var x s => by rw [unlocated]
  | .binary op l r location => by
    rw [unlocated, uses, uses, uses_unlocated l, uses_unlocated r]
  | .uif f s args => by
    rw [unlocated, uses, uses, sorts?_unlocatedArgs, usesOf_unlocatedArgs args]
  | .math f args => by rw [unlocated, uses, uses, usesOf_unlocatedArgs args]

theorem usesOf_unlocatedArgs : ∀ es : List Expr, usesOf (unlocatedArgs es) = usesOf es
  | [] => by rw [unlocatedArgs]
  | e :: es => by
    rw [unlocatedArgs, usesOf, usesOf, uses_unlocated e, usesOf_unlocatedArgs es]

end

end Expr

/-! ## Scripts -/

namespace Script

theorem assertion_unlocated (e : Expr) : assertion e.unlocated = assertion e := by
  simp only [assertion, Expr.term_unlocated, Expr.display_unlocated]

theorem assertions?_unlocated (d : Declarations) (es : List Expr) :
    assertions? d (es.map Expr.unlocated) = assertions? d es := by
  induction es generalizing d with
  | nil => rfl
  | cons e es ih =>
    simp only [List.map_cons, assertions?, Declarations.collect, Expr.uses_unlocated,
      assertion_unlocated, ih]

/-- The script that asserts some conditions, or the reason why there is none. -/
@[simp] theorem ofAssertions_unlocated (conditions : List Expr) (timeoutMs : UInt64) :
    ofAssertions (conditions.map Expr.unlocated) timeoutMs = ofAssertions conditions timeoutMs := by
  rw [ofAssertions, ofAssertions, assertions?_unlocated]

end Script

end Regression
