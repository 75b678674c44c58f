import Regression.Proofs.Expr.Evaluation

/-!
# Interpretations of all expressions

Scripts have no form for some expressions with a sort: a bitwise operator on integers, a remainder
of reals, a number that is not finite, an application to arguments without a sort. An
`Interpretation` chooses a meaning for these too, so that every expression has a value, and every
condition is true or false.

* `Interpretation.sort_value`: a value has the sort that is inferred for its expression.
* `Interpretation.accepts_and`: a conjunction is true if both conditions are.
-/

namespace Regression

noncomputable section

/-! ## Interpretations -/

/-- A meaning for all that an expression leaves open. -/
structure Interpretation where
  arithmetic : Arithmetic
  symbols : Symbols
  inputs : Inputs
  /-- What a number that is not finite stands for. -/
  notFinite : Binary64 → ℝ
  /-- What an operator does where scripts have no form for it. -/
  beyond : Operator → Datum → Datum → Datum
  sort_beyond {op : Operator} {a b : Datum} {s : ValueSort}
    (sorted : op.resultSort a.sort b.sort = .ok s) : (beyond op a b).sort = s

namespace Interpretation

variable (I : Interpretation)

def constant : Constant → Datum
  | .int v => .int v.toInt
  | .real v => .real (if v.isFinite then v.decimal else I.notFinite v)
  | .bool v => .bool v
  | .string v => .string v

def result (op : Operator) (a b : Datum) : Datum :=
  (op.result? I.arithmetic a b).getD (I.beyond op a b)

mutual

/-- The value of an expression. Real functions pass over arguments that are no numbers. -/
def value : Expr → Datum
  | .const v => I.constant v
  | .var x s => I.inputs.value x s
  | .binary op l r _ => I.result op (value l) (value r)
  | .uif f s args => I.symbols.uif f s (values args)
  | .math f args =>
    .real (f.apply I.arithmetic I.symbols ((values args).filterMap Datum.number?))

def values : List Expr → List Datum
  | [] => []
  | e :: es => value e :: values es

end

/-- A condition is true. -/
def Accepts (e : Expr) : Prop := I.value e = .bool true

/-- The choices for scripts, with zeros for what they have no form for. -/
def extending (A : Arithmetic) (S : Symbols) (ρ : Inputs) : Interpretation where
  arithmetic := A
  symbols := S
  inputs := ρ
  notFinite _ := 0
  beyond op a b :=
    match op.resultSort a.sort b.sort with
    | .ok s => .pick 0 false s
    | .error _ => .int 0
  sort_beyond sorted := by simp only [sorted, Datum.sort_pick]

instance : Inhabited Interpretation :=
  ⟨.extending .zero (.constant 0 false) (.constant 0 false)⟩

end Interpretation

/-! ## Sorts of values -/

namespace Operator

/-- A result of an operator has the sort that is inferred from the sorts of its operands. -/
theorem sort_of_result? {A : Arithmetic} {op : Operator} {a b v : Datum} {s : ValueSort}
    (h : op.result? A a b = some v) (hs : op.resultSort a.sort b.sort = .ok s) : v.sort = s := by
  unfold result? at h
  unfold resultSort at hs
  cases hk : op.kind with
  | comparison =>
    simp only [hk] at h hs
    obtain ⟨-, rfl⟩ := of_ite_eq_ok hs
    unfold comparison? at h
    split at h
    · cases h
      rfl
    · split at h
      · cases h
        rfl
      · split at h
        · cases h
          rfl
        · cases h
    · cases h
  | arithmetic =>
    simp only [hk] at h hs
    obtain ⟨-, rfl⟩ := of_ite_eq_ok hs
    cases a <;> cases b <;> cases op <;> cases hk <;> cases h <;> rfl
  | boolean =>
    simp only [hk] at h hs
    cases a <;> cases b <;> cases h
    cases hs
    rfl
  | stringPredicate =>
    simp only [hk] at h hs
    obtain ⟨-, rfl⟩ := of_ite_eq_ok hs
    cases a <;> cases b <;> cases h
    rfl

end Operator

namespace Interpretation

variable (I : Interpretation)

theorem sort_constant (v : Constant) : (I.constant v).sort = v.sort := by
  cases v <;> rfl

theorem sort_result {op : Operator} {a b : Datum} {s : ValueSort}
    (h : op.resultSort a.sort b.sort = .ok s) : (I.result op a b).sort = s := by
  unfold result
  cases hresult : op.result? I.arithmetic a b with
  | none => exact I.sort_beyond h
  | some v => exact Operator.sort_of_result? hresult h

theorem sort_value : ∀ {e : Expr} {s : ValueSort}, e.sort? = .ok s → (I.value e).sort = s
  | .const v, s, h => by
    cases h
    exact I.sort_constant v
  | .var x s, _, h => by
    cases h
    exact I.inputs.sort_value x s
  | .uif f s args, _, h => by
    cases h
    exact I.symbols.sort_uif f s _
  | .math f args, s, h => by
    rw [Expr.sort?] at h
    split at h
    · cases h
    · obtain ⟨-, -, h⟩ := bind_eq_ok.mp h
      cases h
      rfl
  | .binary op l r location, s, h => by
    rw [Expr.sort?] at h
    obtain ⟨ls, hl, h⟩ := bind_eq_ok.mp h
    obtain ⟨rs, hr, h⟩ := bind_eq_ok.mp h
    rw [← sort_value hl, ← sort_value hr] at h
    rw [value]
    exact I.sort_result h

/-- A condition is true or false. -/
theorem exists_value_eq_bool {e : Expr} (h : e.sort? = .ok .bool) : ∃ b, I.value e = .bool b := by
  have hsort := I.sort_value h
  cases hvalue : I.value e with
  | bool b => exact ⟨b, rfl⟩
  | int | real | string => rw [hvalue] at hsort; cases hsort

/-! ## Conjunctions -/

/-- A conjunction is true if both conditions are. -/
theorem accepts_and {l r : Expr} {location : Option Location} (hl : l.sort? = .ok .bool)
    (hr : r.sort? = .ok .bool) :
    I.Accepts (.binary .and l r location) ↔ I.Accepts l ∧ I.Accepts r := by
  obtain ⟨p, hp⟩ := I.exists_value_eq_bool hl
  obtain ⟨q, hq⟩ := I.exists_value_eq_bool hr
  have hvalue : I.value (.binary .and l r location) = .bool (p && q) := by
    rw [value, hp, hq]
    rfl
  simp only [Accepts, hvalue, hp, hq, Datum.bool.injEq, Bool.and_eq_true]

end Interpretation

end

end Regression
