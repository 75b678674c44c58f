import Regression.Proofs.Expr.Interpretation

/-!
# Conditions and their conjuncts

A path condition is put together from conditions by `Expr.conjunction` and taken apart again by
`Expr.conjuncts`. Nothing is lost on the way, and nothing is left that could be taken apart.

* `Expr.forall_conjuncts_iff`: what distributes over conjunctions can be asked of the conjuncts.
* `Expr.conjuncts_faithful`: a condition and its conjuncts say the same.
-/

namespace Regression

namespace Expr

theorem holds_and {A : Arithmetic} {S : Symbols} {ρ : Inputs} {l r : Expr}
    {location : Option Location} :
    (binary .and l r location).Holds A S ρ ↔ l.Holds A S ρ ∧ r.Holds A S ρ := by
  simp only [Holds, eval]
  cases hl : l.eval A S ρ with
  | none => simp
  | some a =>
    cases hr : r.eval A S ρ with
    | none => simp
    | some b =>
      cases a <;> cases b <;>
        simp [Operator.result?, Operator.boolean?, Operator.kind]

/-! ## Conjuncts -/

theorem isCondition_iff {e : Expr} : e.isCondition ↔ e.sort? = .ok .bool := by
  unfold isCondition
  split
  · next h => simp [h]
  · next h => simpa using h

/-- A conjunction is a condition if and only if its operands are conditions. -/
theorem sort?_and_iff {l r : Expr} {location : Option Location} :
    (binary .and l r location).sort? = .ok .bool ↔
      l.sort? = .ok .bool ∧ r.sort? = .ok .bool := by
  rw [sort?, bind_eq_ok]
  constructor
  · rintro ⟨ls, hl, h⟩
    obtain ⟨rs, hr, h⟩ := bind_eq_ok.mp h
    cases ls <;> cases rs <;> cases h
    exact ⟨hl, hr⟩
  · rintro ⟨hl, hr⟩
    exact ⟨.bool, hl, bind_eq_ok.mpr ⟨.bool, hr, rfl⟩⟩

theorem conjuncts_and {l r : Expr} {location : Option Location} (hl : l.sort? = .ok .bool)
    (hr : r.sort? = .ok .bool) :
    (binary .and l r location).conjuncts = l.conjuncts ++ r.conjuncts := by
  rw [conjuncts, if_pos]
  rw [Bool.and_eq_true]
  exact ⟨isCondition_iff.mpr hl, isCondition_iff.mpr hr⟩

/-- What holds of the literal `true`, and of a conjunction just when it holds of both conditions,
holds of an expression just when it holds of its conjuncts. -/
theorem forall_conjuncts_iff {P : Expr → Prop} (htrue : P (bool true))
    (hand : ∀ {l r : Expr} {location : Option Location}, l.sort? = .ok .bool →
      r.sort? = .ok .bool → (P (.binary .and l r location) ↔ P l ∧ P r)) (e : Expr) :
    (∀ c ∈ e.conjuncts, P c) ↔ P e := by
  fun_induction conjuncts e with
  | case1 l r location hboth ihl ihr =>
    simp only [Bool.and_eq_true, isCondition_iff] at hboth
    rw [List.forall_mem_append, ihl, ihr, hand hboth.1 hboth.2]
  | case2 | case4 => simp
  | case3 => simpa using show P (const (.bool true)) from htrue

/-- What is left of a condition is a condition that cannot be taken apart. -/
theorem atomic_of_mem_conjuncts {e c : Expr} (h : e.sort? = .ok .bool) (hc : c ∈ e.conjuncts) :
    c.sort? = .ok .bool ∧ c ≠ bool true ∧ ∀ l r location, c ≠ .binary .and l r location := by
  fun_induction conjuncts e with
  | case1 l r location _ ihl ihr =>
    obtain ⟨hl, hr⟩ := sort?_and_iff.mp h
    rcases List.mem_append.mp hc with hc | hc
    · exact ihl hl hc
    · exact ihr hr hc
  | case2 l r location hboth =>
    obtain ⟨hl, hr⟩ := sort?_and_iff.mp h
    exact absurd (by simp [isCondition_iff.mpr hl, isCondition_iff.mpr hr]) hboth
  | case3 => cases hc
  | case4 e hand htrue =>
    obtain rfl := List.mem_singleton.mp hc
    exact ⟨h, htrue, hand⟩

/-! ## Conjunctions of lists -/

/-- A conjunction nested to the left is a condition with the conjuncts of all parts. -/
theorem conjuncts_foldl {es : List Expr} (h : ∀ e ∈ es, e.sort? = .ok .bool) {first : Expr}
    (hfirst : first.sort? = .ok .bool) :
    (es.foldl (mk .and) first).sort? = .ok .bool ∧
      (es.foldl (mk .and) first).conjuncts = first.conjuncts ++ es.flatMap conjuncts := by
  induction es generalizing first with
  | nil => exact ⟨hfirst, (List.append_nil _).symm⟩
  | cons e es ih =>
    obtain ⟨he, hes⟩ := List.forall_mem_cons.mp h
    obtain ⟨hsort, hconjuncts⟩ := ih hes (sort?_and_iff.mpr ⟨hfirst, he⟩)
    refine ⟨hsort, hconjuncts.trans ?_⟩
    rw [conjuncts_and hfirst he, List.flatMap_cons, List.append_assoc]

theorem conjuncts_conjunction {es : List Expr} (h : ∀ e ∈ es, e.sort? = .ok .bool) :
    (conjunction es).conjuncts = es.flatMap conjuncts := by
  cases es with
  | nil => rfl
  | cons first rest =>
    obtain ⟨hfirst, hrest⟩ := List.forall_mem_cons.mp h
    exact (conjuncts_foldl hrest hfirst).2

/-- The conjuncts of several expressions are counted together, as long as 32 bits are enough. -/
theorem sum_constraintCount {es : List Expr} (h : (es.flatMap conjuncts).length < 2 ^ 32) :
    (es.map fun e => e.constraintCount.toNat).sum = (es.flatMap conjuncts).length := by
  induction es with
  | nil => rfl
  | cons e es ih =>
    rw [List.flatMap_cons, List.length_append] at h ⊢
    rw [List.map_cons, List.sum_cons, ih (by omega), constraintCount,
      UInt32.toNat_ofNat_of_lt' (by simpa [UInt32.size] using by omega)]

/-- Splitting conditions into conjuncts is faithful. A conjunction has the conjuncts of its parts,
and as many; the empty one has none. A condition is true just when all its conjuncts are, whether
or not scripts have a form for it; the conjuncts are conditions, none of which is `true` or a
conjunction. -/
theorem conjuncts_faithful :
    (∀ es : List Expr, (∀ e ∈ es, e.sort? = .ok .bool) →
      (conjunction es).conjuncts = es.flatMap conjuncts ∧
      ((es.flatMap conjuncts).length < 2 ^ 32 →
        (conjunction es).constraintCount.toNat =
          (es.map fun e => e.constraintCount.toNat).sum)) ∧
    (conjunction []).constraintCount = 0 ∧
    ∀ e : Expr, e.sort? = .ok .bool →
      (∀ I : Interpretation, I.Accepts e ↔ ∀ c ∈ e.conjuncts, I.Accepts c) ∧
      (∀ A S ρ, e.Holds A S ρ ↔ ∀ c ∈ e.conjuncts, c.Holds A S ρ) ∧
      ∀ c ∈ e.conjuncts, c.sort? = .ok .bool ∧ c ≠ bool true ∧
        ∀ l r location, c ≠ .binary .and l r location := by
  refine ⟨fun es hes => ⟨conjuncts_conjunction hes, fun hsize => ?_⟩, rfl, fun e he => ?_⟩
  · rw [sum_constraintCount hsize, constraintCount, conjuncts_conjunction hes,
      UInt32.toNat_ofNat_of_lt' hsize]
  · refine ⟨fun I => ?_, fun A S ρ => ?_, fun c hc => atomic_of_mem_conjuncts he hc⟩
    · exact (forall_conjuncts_iff (P := I.Accepts) rfl I.accepts_and e).symm
    · exact (forall_conjuncts_iff (P := fun c => c.Holds A S ρ) rfl (fun _ _ => holds_and) e).symm

/-- A bitwise operator on integers is not taken apart, and `true` is left out. -/
theorem conjuncts_faithful_bits :
    let odd : Expr := .mk .eq (.mk .and (.var "x" .int) (.int 1)) (.int 1)
    let called : Expr := .mk .gt (.uif "f" .int [.var "x" .int]) (.int 0)
    let es : List Expr := [odd, .mk .and (.bool true) called, .bool true]
    (∀ e ∈ es, e.sort? = .ok .bool) ∧ (conjunction es).conjuncts = [odd, called] ∧
      (conjunction es).constraintCount.toNat = 2 ∧
      ∀ I : Interpretation, I.Accepts (conjunction es) ↔ I.Accepts odd ∧ I.Accepts called := by
  intro odd called es
  have hsorts : ∀ e ∈ es, e.sort? = .ok .bool := by
    simp only [es, List.forall_mem_cons]
    exact ⟨rfl, rfl, rfl, nofun⟩
  obtain ⟨hconjuncts, hcount⟩ := conjuncts_faithful.1 es hsorts
  have hes : es.flatMap conjuncts = [odd, called] := rfl
  refine ⟨hsorts, hconjuncts.trans hes, hcount (by rw [hes]; decide), fun I => ?_⟩
  rw [(conjuncts_faithful.2.2 (conjunction es) rfl).1 I, hconjuncts, hes]
  simp

end Expr

end Regression
