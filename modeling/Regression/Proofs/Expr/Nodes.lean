import Regression.Partition

/-!
# Where an expression occurs

An expression occurs in another one if it is a node of its tree. The list of nodes and the questions
that are answered by going through it are compared with this relation.

* `Expr.mem_nodes`: the nodes are the expressions that occur.
* `Partition.hasUif_iff`: the flag of a partition tells whether an uninterpreted function is
  applied.
-/

namespace Regression

namespace Expr

/-- An expression is a node of another one. -/
inductive Occurs (x : Expr) : Expr → Prop
  | self : Occurs x x
  | left {op : Operator} {l r : Expr} {location : Option Location} (occurs : Occurs x l) :
    Occurs x (.binary op l r location)
  | right {op : Operator} {l r : Expr} {location : Option Location} (occurs : Occurs x r) :
    Occurs x (.binary op l r location)
  | uifArg {name : String} {sort : ValueSort} {args : List Expr} {e : Expr} (mem : e ∈ args)
    (occurs : Occurs x e) : Occurs x (.uif name sort args)
  | mathArg {function : MathFunction} {args : List Expr} {e : Expr} (mem : e ∈ args)
    (occurs : Occurs x e) : Occurs x (.math function args)

theorem self_mem_nodes (e : Expr) : e ∈ e.nodes := by
  cases e <;> simp [nodes]

theorem mem_nodesOf {x : Expr} {es : List Expr} : x ∈ nodesOf es ↔ ∃ e ∈ es, x ∈ e.nodes := by
  induction es with
  | nil => simp [nodesOf]
  | cons e es ih => simp [nodesOf, ih]

theorem Occurs.mem_nodes {x e : Expr} (h : x.Occurs e) : x ∈ e.nodes := by
  induction h with
  | self => exact self_mem_nodes x
  | left _ ih => exact List.mem_cons_of_mem _ (List.mem_append_left _ ih)
  | right _ ih => exact List.mem_cons_of_mem _ (List.mem_append_right _ ih)
  | uifArg mem _ ih => exact List.mem_cons_of_mem _ (mem_nodesOf.mpr ⟨_, mem, ih⟩)
  | mathArg mem _ ih => exact List.mem_cons_of_mem _ (mem_nodesOf.mpr ⟨_, mem, ih⟩)

mutual

theorem occurs_of_mem_nodes {x : Expr} : ∀ {e : Expr}, x ∈ e.nodes → x.Occurs e
  | .const _, h | .var _ _, h => by
    rw [nodes, List.mem_singleton] at h
    exact h ▸ .self
  | .binary op l r location, h => by
    rw [nodes] at h
    rcases List.mem_cons.mp h with rfl | h
    · exact .self
    · rcases List.mem_append.mp h with h | h
      · exact .left (occurs_of_mem_nodes h)
      · exact .right (occurs_of_mem_nodes h)
  | .uif name sort args, h => by
    rw [nodes] at h
    rcases List.mem_cons.mp h with rfl | h
    · exact .self
    · obtain ⟨e, he, hx⟩ := occurs_of_mem_nodesOf h
      exact .uifArg he hx
  | .math function args, h => by
    rw [nodes] at h
    rcases List.mem_cons.mp h with rfl | h
    · exact .self
    · obtain ⟨e, he, hx⟩ := occurs_of_mem_nodesOf h
      exact .mathArg he hx

theorem occurs_of_mem_nodesOf {x : Expr} :
    ∀ {es : List Expr}, x ∈ nodesOf es → ∃ e ∈ es, x.Occurs e
  | [], h => by cases h
  | e :: es, h => by
    rw [nodesOf] at h
    rcases List.mem_append.mp h with h | h
    · exact ⟨e, List.mem_cons_self, occurs_of_mem_nodes h⟩
    · obtain ⟨e', he', hx⟩ := occurs_of_mem_nodesOf h
      exact ⟨e', List.mem_cons_of_mem _ he', hx⟩

end

theorem mem_nodes {x e : Expr} : x ∈ e.nodes ↔ x.Occurs e :=
  ⟨occurs_of_mem_nodes, Occurs.mem_nodes⟩

/-- An uninterpreted function is applied somewhere. -/
def AppliesUif (e : Expr) : Prop := ∃ name sort args, (Expr.uif name sort args).Occurs e

theorem hasUif_iff {e : Expr} : e.hasUif ↔ e.AppliesUif := by
  rw [hasUif, List.any_eq_true]
  constructor
  · rintro ⟨x, hx, huif⟩
    cases x with
    | uif name sort args => exact ⟨name, sort, args, mem_nodes.mp hx⟩
    | _ => cases huif
  · rintro ⟨name, sort, args, h⟩
    exact ⟨_, mem_nodes.mpr h, rfl⟩

end Expr

/-- The expressions of a partition. -/
def Partition.exprs (p : Partition) : List Expr :=
  p.pc :: (p.v1.expr?.toList ++ p.v2.expr?.toList)

theorem Outcome.hasUif_iff {o : Outcome} :
    o.hasUif ↔ ∃ e ∈ o.expr?.toList, e.AppliesUif := by
  cases o with
  | concrete v =>
    have hnone : (Expr.const v).hasUif = false := by simp [Expr.hasUif, Expr.nodes, Expr.isUif]
    simp [hasUif, expr?, ← Expr.hasUif_iff, hnone]
  | symbolic e => simp [hasUif, expr?, Expr.hasUif_iff]
  | raised error => simp [hasUif, expr?]

theorem Partition.hasUif_iff {p : Partition} : p.hasUif ↔ ∃ e ∈ p.exprs, e.AppliesUif := by
  have hparts : p.hasUif ↔ p.pc.hasUif ∨ p.v1.hasUif ∨ p.v2.hasUif := by
    rw [hasUif, Bool.or_eq_true, Bool.or_eq_true, or_assoc]
  rw [hparts, Expr.hasUif_iff, Outcome.hasUif_iff, Outcome.hasUif_iff]
  simp [exprs, or_and_right, exists_or]

end Regression
