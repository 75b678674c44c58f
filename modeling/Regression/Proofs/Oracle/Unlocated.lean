import Regression.Proofs.Expr.Nodes
import Regression.Proofs.Expr.Unlocated
import Regression.Proofs.Oracle.Exchange

/-!
# Partitions without locations

The oracle does with a partition what it does with the partition without locations: it is the same
computation, whoever answers the queries. Partitions that are equal, locations aside, can therefore
stand for each other.

* `Partition.beq_iff`: equal partitions differ in locations at most.
* `Oracle.check_unlocated`: the oracle does not see locations.
* `locations_do_not_matter`: what is found out about equal partitions is the same.
-/

namespace Regression

/-! ## Outcomes and partitions -/

namespace Outcome

/-- Whether two outcomes differ in locations at most. -/
def same : Outcome → Outcome → Bool
  | .concrete v, .concrete w => v == w
  | .symbolic e, .symbolic e' => e == e'
  | .raised error, .raised error' => error == error'
  | _, _ => false

instance : BEq Outcome := ⟨same⟩

def unlocated : Outcome → Outcome
  | .symbolic e => .symbolic e.unlocated
  | o => o

theorem beq_iff {o o' : Outcome} : (o == o') = true ↔ o.unlocated = o'.unlocated := by
  have hsame : (o == o') = o.same o' := rfl
  rw [hsame]
  cases o <;> cases o' <;> simp [same, unlocated, Expr.beq_iff]

@[simp] theorem expr?_unlocated (o : Outcome) :
    o.unlocated.expr? = o.expr?.map Expr.unlocated := by
  cases o <;> rfl

@[simp] theorem raised?_unlocated (o : Outcome) : o.unlocated.raised? = o.raised? := by
  cases o <;> rfl

@[simp] theorem hasUif_unlocated (o : Outcome) : o.unlocated.hasUif = o.hasUif := by
  cases o with
  | symbolic e => exact e.hasUif_unlocated
  | concrete | raised => rfl

@[simp] theorem uifNames_unlocated (o : Outcome) : o.unlocated.uifNames = o.uifNames := by
  cases o with
  | symbolic e => exact e.uifNames_unlocated
  | concrete | raised => rfl

end Outcome

namespace Partition

/-- Whether two partitions differ in locations at most. -/
def same (p p' : Partition) : Bool :=
  p.index == p'.index && p.pc == p'.pc && p.v1 == p'.v1 && p.v2 == p'.v2 &&
    p.depthLimited == p'.depthLimited

instance : BEq Partition := ⟨same⟩

def unlocated (p : Partition) : Partition :=
  { p with pc := p.pc.unlocated, v1 := p.v1.unlocated, v2 := p.v2.unlocated }

theorem beq_iff {p p' : Partition} : (p == p') = true ↔ p.unlocated = p'.unlocated := by
  have hsame : (p == p') = p.same p' := rfl
  rw [hsame]
  simp [same, unlocated, Expr.beq_iff, Outcome.beq_iff, and_assoc]

@[simp] theorem hasUif_unlocated (p : Partition) : p.unlocated.hasUif = p.hasUif := by
  simp [hasUif, unlocated]

@[simp] theorem uifNames_unlocated (p : Partition) : p.unlocated.uifNames = p.uifNames := by
  simp [uifNames, unlocated]

theorem exprs_unlocated (p : Partition) : p.unlocated.exprs = p.exprs.map Expr.unlocated := by
  cases hv1 : p.v1.expr? <;> cases hv2 : p.v2.expr? <;> simp [exprs, unlocated, hv1, hv2]

end Partition

/-! ## Queries -/

theorem Query.build_unlocated (kind : QueryKind) (conditions : List Expr) (timeoutMs : UInt64) :
    build kind (conditions.map Expr.unlocated) timeoutMs = build kind conditions timeoutMs := by
  rw [build, build, Script.ofAssertions_unlocated]

namespace Oracle

theorem relate_unlocated (v1 v2 : Expr) (equal : Bool) :
    relate v1.unlocated v2.unlocated equal = (relate v1 v2 equal).map Expr.unlocated := by
  rw [relate, relate, Expr.sort?_unlocated]
  cases v1.sort? <;> rfl

theorem posed_unlocated (kind : QueryKind) (pc v1 v2 : Expr) (equal : Bool) (timeoutMs : UInt64) :
    posed kind pc.unlocated v1.unlocated v2.unlocated equal timeoutMs =
      posed kind pc v1 v2 equal timeoutMs := by
  rw [posed, posed, relate_unlocated]
  cases relate v1 v2 equal with
  | error e => rfl
  | ok relation => exact Query.build_unlocated kind [pc, relation] timeoutMs

/-! ## The oracle -/

section

variable {m : Type → Type} [Monad m] (desk : QueryDesk m) (timeoutMs : UInt64)

theorem query_unlocated (key : QueryKey) (conditions : List Expr) :
    query desk timeoutMs key (conditions.map Expr.unlocated) =
      query desk timeoutMs key conditions := by
  simp only [query, Query.build_unlocated]

theorem queryRelation_unlocated (key : QueryKey) (pc v1 v2 : Expr) (equal : Bool) :
    queryRelation desk timeoutMs key pc.unlocated v1.unlocated v2.unlocated equal =
      queryRelation desk timeoutMs key pc v1 v2 equal := by
  rw [queryRelation, queryRelation, relate_unlocated]
  cases relate v1 v2 equal with
  | error e => rfl
  | ok relation => exact query_unlocated desk timeoutMs key [pc, relation]

theorem compareReturned_unlocated (iteration : UInt32) (p : Partition) (pc : Status)
    (v1 v2 : Expr) :
    compareReturned desk timeoutMs iteration p.unlocated pc v1.unlocated v2.unlocated =
      compareReturned desk timeoutMs iteration p pc v1 v2 := by
  have hpc : p.unlocated.pc = p.pc.unlocated := rfl
  have hindex : p.unlocated.index = p.index := rfl
  simp only [compareReturned, hpc, hindex, queryRelation_unlocated, Partition.hasUif_unlocated]

theorem compareRaised_unlocated (v1 v2 : Outcome) :
    compareRaised v1.unlocated v2.unlocated = compareRaised v1 v2 := by
  simp only [compareRaised, Outcome.raised?_unlocated]

theorem investigate_unlocated (iteration : UInt32) (p : Partition) :
    investigate desk timeoutMs iteration p.unlocated =
      investigate desk timeoutMs iteration p := by
  have hquery (key : QueryKey) : query desk timeoutMs key [p.unlocated.pc] =
      query desk timeoutMs key [p.pc] :=
    query_unlocated desk timeoutMs key [p.pc]
  have hindex : p.unlocated.index = p.index := rfl
  have hraised : compareRaised p.unlocated.v1 p.unlocated.v2 = compareRaised p.v1 p.v2 :=
    compareRaised_unlocated p.v1 p.v2
  have hv1 : p.unlocated.v1.expr? = p.v1.expr?.map Expr.unlocated := p.v1.expr?_unlocated
  have hv2 : p.unlocated.v2.expr? = p.v2.expr?.map Expr.unlocated := p.v2.expr?_unlocated
  simp only [investigate, hquery, hindex, hraised, hv1, hv2]
  cases p.v1.expr? with
  | none => rfl
  | some v1 =>
    cases p.v2.expr? with
    | none => rfl
    | some v2 => simp only [Option.map_some, compareReturned_unlocated]

theorem conclude_unlocated (p : Partition) (statuses : Statuses) (failure : Option Failure)
    (runtime : Duration) :
    conclude p.unlocated statuses failure runtime = conclude p statuses failure runtime := by
  simp [conclude, Partition.unlocated]

/-- The oracle does the same with a partition without locations. -/
theorem check_unlocated (iteration : UInt32) (p : Partition) :
    check desk timeoutMs iteration p.unlocated = check desk timeoutMs iteration p := by
  simp only [check, investigate_unlocated, conclude_unlocated]

end

end Oracle

/-! ## Partitions that are equal -/

/-- The queries that can be asked about a partition, or why they cannot be asked. -/
def Partition.queries (p : Partition) (timeoutMs : UInt64) : List (Except Malformed Query) :=
  Query.build .pc [p.pc] timeoutMs ::
    match p.v1.expr?, p.v2.expr? with
    | some v1, some v2 =>
      [Oracle.posed .neq p.pc v1 v2 false timeoutMs, Oracle.posed .eq p.pc v1 v2 true timeoutMs]
    | _, _ => []

theorem Partition.queries_unlocated (p : Partition) (timeoutMs : UInt64) :
    p.unlocated.queries timeoutMs = p.queries timeoutMs := by
  have hpc : Query.build .pc [p.unlocated.pc] timeoutMs = Query.build .pc [p.pc] timeoutMs :=
    Query.build_unlocated .pc [p.pc] timeoutMs
  have hposed (kind : QueryKind) (v1 v2 : Expr) (equal : Bool) :
      Oracle.posed kind p.unlocated.pc v1.unlocated v2.unlocated equal timeoutMs =
        Oracle.posed kind p.pc v1 v2 equal timeoutMs :=
    Oracle.posed_unlocated kind p.pc v1 v2 equal timeoutMs
  have hv1 : p.unlocated.v1.expr? = p.v1.expr?.map Expr.unlocated := p.v1.expr?_unlocated
  have hv2 : p.unlocated.v2.expr? = p.v2.expr?.map Expr.unlocated := p.v2.expr?_unlocated
  rw [queries, queries, hpc, hv1, hv2]
  cases p.v1.expr? with
  | none => rfl
  | some v1 =>
    cases p.v2.expr? with
    | none => rfl
    | some v2 => simp only [Option.map_some, hposed]

/-- What the analyses tell of two expressions is the same. -/
structure Expr.Indistinguishable (e e' : Expr) : Prop where
  sort?_eq : e.sort? = e'.sort?
  uifNames_eq : e.uifNames = e'.uifNames
  hasUif_eq : e.hasUif = e'.hasUif
  constraintCount_eq : e.constraintCount = e'.constraintCount

/-- Nothing that is found out about two partitions tells them apart. -/
structure Partition.Indistinguishable (p p' : Partition) : Prop where
  exprs : List.Forall₂ Expr.Indistinguishable p.exprs p'.exprs
  uifNames_eq : p.uifNames = p'.uifNames
  queries_eq (timeoutMs : UInt64) : p.queries timeoutMs = p'.queries timeoutMs
  check_eq {m : Type → Type} [Monad m] (desk : QueryDesk m) (timeoutMs : UInt64)
    (iteration : UInt32) :
    Oracle.check desk timeoutMs iteration p = Oracle.check desk timeoutMs iteration p'

theorem Expr.indistinguishable {e e' : Expr} (h : e.unlocated = e'.unlocated) :
    e.Indistinguishable e' where
  sort?_eq := by rw [← e.sort?_unlocated, h, e'.sort?_unlocated]
  uifNames_eq := by rw [← e.uifNames_unlocated, h, e'.uifNames_unlocated]
  hasUif_eq := by rw [← e.hasUif_unlocated, h, e'.hasUif_unlocated]
  constraintCount_eq := by rw [← e.constraintCount_unlocated, h, e'.constraintCount_unlocated]

theorem Expr.forall₂_of_map_unlocated {es es' : List Expr}
    (h : es.map Expr.unlocated = es'.map Expr.unlocated) :
    List.Forall₂ (fun e e' => e.unlocated = e'.unlocated) es es' := by
  rw [← List.forall₂_eq_eq_eq, List.forall₂_map_left_iff, List.forall₂_map_right_iff] at h
  exact h

theorem Partition.indistinguishable {p p' : Partition} (h : p.unlocated = p'.unlocated) :
    p.Indistinguishable p' where
  exprs := by
    have hexprs := congrArg exprs h
    rw [exprs_unlocated, exprs_unlocated] at hexprs
    exact (Expr.forall₂_of_map_unlocated hexprs).imp fun _ _ => Expr.indistinguishable
  uifNames_eq := by rw [← p.uifNames_unlocated, h, p'.uifNames_unlocated]
  queries_eq timeoutMs := by
    rw [← p.queries_unlocated, h, p'.queries_unlocated]
  check_eq desk timeoutMs iteration := by
    rw [← Oracle.check_unlocated, h, Oracle.check_unlocated]

/-- Locations do not influence an analysis. Expressions are equal just when they differ in locations
at most; conditions that are equal one by one make the same script, or have none for the same
reason; and about partitions that are equal the same is found out by the same computation, whoever
answers the queries. -/
theorem locations_do_not_matter :
    (∀ e e' : Expr, (e == e') = true ↔ e.unlocated = e'.unlocated) ∧
    (∀ (conditions conditions' : List Expr) (timeoutMs : UInt64),
      List.Forall₂ (fun e e' => (e == e') = true) conditions conditions' →
        Script.ofAssertions conditions timeoutMs = Script.ofAssertions conditions' timeoutMs) ∧
    ∀ p p' : Partition, (p == p') = true → p.Indistinguishable p' := by
  refine ⟨fun _ _ => Expr.beq_iff, fun conditions conditions' timeoutMs h => ?_,
    fun p p' h => Partition.indistinguishable (Partition.beq_iff.mp h)⟩
  have hmap : conditions.map Expr.unlocated = conditions'.map Expr.unlocated := by
    rw [← List.forall₂_eq_eq_eq, List.forall₂_map_left_iff, List.forall₂_map_right_iff]
    exact h.imp fun _ _ => Expr.beq_iff.mp
  rw [← Script.ofAssertions_unlocated conditions, hmap, Script.ofAssertions_unlocated]

/-- Where the path condition comes from does not change the verdict. -/
theorem locations_do_not_matter_successor :
    let location : Location := ⟨"Ell", "Ell", "sqrt", 3, some 1⟩
    let located : Partition :=
      { Oracle.successor with pc := .binary .gt (.var "x" .int) (.int 0) (some location) }
    (located == Oracle.successor) = true ∧ located.pc ≠ Oracle.successor.pc ∧
      ((Oracle.check (.filing Oracle.differing) 1000 1 located).run []).1.classify = .ok .neq := by
  intro location located
  have hequal : (located == Oracle.successor) = true := by decide
  refine ⟨hequal, by simp [located, Oracle.successor, Expr.mk], ?_⟩
  rw [(locations_do_not_matter.2.2 located Oracle.successor hequal).check_eq]
  rfl

end Regression
