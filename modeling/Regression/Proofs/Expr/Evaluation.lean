import Regression.Proofs.Computation
import Regression.Proofs.Expr.Meaning

/-!
# Values of expressions with terms

What a script can assert has a meaning, and the meaning depends on what the expression shows.

* `eval_of_term`: an expression with a term has a value, whose sort is that of the term.
* `holds_congr`: without uninterpreted symbols their meaning does not matter.
-/

namespace Regression

open Script

/-! ## Sorts of terms -/

namespace Script.Term

/-- How a node is rendered. Numbers are compared and combined in the wider one of their sorts, and
powers are those of reals. Everything else is compared with its like only. -/
inductive Renders (op : Operator) (l r : Term) : ValueSort → ValueSort → Term → ValueSort → Prop
  | numbers {ls rs : ValueSort} (kind : op.kind = .comparison) (left : ls.isNumeric)
    (right : rs.isNumeric) :
    Renders op l r ls rs (comparison op (l.lift ls (ls.widen rs)) (r.lift rs (ls.widen rs))) .bool
  | alike {s : ValueSort} (equality : op = .eq ∨ op = .ne) (other : s.isNumeric = false) :
    Renders op l r s s (comparison op l r) .bool
  | power {ls rs : ValueSort} (power : op = .pow) (left : ls.isNumeric) (right : rs.isNumeric) :
    Renders op l r ls rs (.apply "pow" [l.lift ls .real, r.lift rs .real]) .real
  | arithmetic {ls rs : ValueSort} {head : String} (kind : op.kind = .arithmetic)
    (other : op ≠ .pow) (left : ls.isNumeric) (right : rs.isNumeric)
    (word : arithmeticWord? op (ls.widen rs) = some head) :
    Renders op l r ls rs (.apply head [l.lift ls (ls.widen rs), r.lift rs (ls.widen rs)])
      (ls.widen rs)
  | boolean (kind : op.kind = .boolean) :
    Renders op l r .bool .bool (.apply (booleanWord op) [l, r]) .bool
  | stringPredicate (kind : op.kind = .stringPredicate) :
    Renders op l r .string .string (Term.stringPredicate op l r) .bool

variable {op : Operator} {l r t : Term} {ls rs s : ValueSort}

theorem renders_of_binary (h : binary op l ls r rs = .ok (t, s)) : Renders op l r ls rs t s := by
  unfold binary at h
  cases hkind : op.kind with
  | comparison =>
    simp only [hkind] at h
    split at h
    · next hnumeric =>
      cases h
      obtain ⟨hl, hr⟩ := Bool.and_eq_true_iff.mp hnumeric
      exact .numbers hkind hl hr
    · next hnumeric =>
      obtain ⟨hsame, heq⟩ := of_ite_eq_ok h
      cases heq
      obtain ⟨rfl, hequality⟩ : ls = rs ∧ (op = .eq ∨ op = .ne) := by simpa using hsame
      exact .alike hequality (by simpa using hnumeric)
  | arithmetic =>
    simp only [hkind] at h
    split at h
    · cases h
    · next hnumeric =>
      obtain ⟨hl, hr⟩ : ls.isNumeric = true ∧ rs.isNumeric = true := by simpa using hnumeric
      split at h
      · next hpower =>
        cases h
        exact .power hpower hl hr
      · next hother =>
        split at h
        · next hword =>
          cases h
          exact .arithmetic hkind hother hl hr hword
        · cases h
  | boolean =>
    simp only [hkind] at h
    obtain ⟨hsorts, heq⟩ := of_ite_eq_ok h
    cases heq
    obtain ⟨rfl, rfl⟩ : ls = .bool ∧ rs = .bool := by simpa using hsorts
    exact .boolean hkind
  | stringPredicate =>
    simp only [hkind] at h
    obtain ⟨hsorts, heq⟩ := of_ite_eq_ok h
    cases heq
    obtain ⟨rfl, rfl⟩ : ls = .string ∧ rs = .string := by simpa using hsorts
    exact .stringPredicate hkind

theorem Renders.binary_eq (h : Renders op l r ls rs t s) : binary op l ls r rs = .ok (t, s) := by
  unfold binary
  cases h with
  | numbers kind left right => simp [kind, left, right]
  | alike equality other => rcases equality with rfl | rfl <;> simp [Operator.kind, other]
  | power power left right => simp [power, Operator.kind, left, right]
  | arithmetic kind other left right word => simp [kind, other, left, right, word]
  | boolean kind => simp [kind]
  | stringPredicate kind => simp [kind]

/-- The sort of a rendered node is the one that is inferred for it. -/
theorem Renders.resultSort_eq (h : Renders op l r ls rs t s) : op.resultSort ls rs = .ok s := by
  unfold Operator.resultSort
  cases h with
  | numbers kind left right => simp [kind, left, right]
  | alike equality => rcases equality with rfl | rfl <;> simp [Operator.kind]
  | power power left right => simp [power, Operator.kind, left, right]
  | arithmetic kind other left right => simp [kind, other, left, right]
  | boolean kind => simp [kind]
  | stringPredicate kind => simp [kind]

end Script.Term

namespace Expr

/-- A term has the sort that is inferred for its expression. -/
theorem sort?_of_term : ∀ {e : Expr} {t : Term} {s : ValueSort},
    e.term = .ok (t, s) → e.sort? = .ok s
  | .const v, t, s, h => by
    rw [term] at h
    obtain ⟨t', ht, h⟩ := bind_eq_ok.mp h
    cases h
    rfl
  | .var x s', t, s, h => by
    rw [term] at h
    obtain ⟨_, _, h⟩ := bind_eq_ok.mp h
    cases h
    rfl
  | .uif f s' args, t, s, h => by
    rw [term] at h
    obtain ⟨_, _, h⟩ := bind_eq_ok.mp h
    obtain ⟨_, _, h⟩ := bind_eq_ok.mp h
    cases h
    rfl
  | .math f args, t, s, h => by
    rw [term] at h
    obtain ⟨s', hs, h⟩ := bind_eq_ok.mp h
    obtain ⟨_, _, h⟩ := bind_eq_ok.mp h
    cases h
    rw [hs]
    rw [sort?] at hs
    split at hs
    · cases hs
    · obtain ⟨_, _, hs⟩ := bind_eq_ok.mp hs
      cases hs
      rfl
  | .binary op l r loc, t, s, h => by
    rw [term] at h
    obtain ⟨⟨l', ls⟩, hl, h⟩ := bind_eq_ok.mp h
    obtain ⟨⟨r', rs⟩, hr, h⟩ := bind_eq_ok.mp h
    rw [sort?, sort?_of_term hl, sort?_of_term hr]
    exact (Term.renders_of_binary h).resultSort_eq

end Expr

/-! ## Values of terms -/

namespace Datum

theorem number?_of_isNumeric {a : Datum} (h : a.sort.isNumeric) : ∃ x, a.number? = some x := by
  cases a with
  | int n => exact ⟨_, rfl⟩
  | real x => exact ⟨_, rfl⟩
  | bool b => cases h
  | string s => cases h

theorem number?_of_not_isNumeric {a : Datum} (h : ¬ a.sort.isNumeric) : a.number? = none := by
  cases a with
  | int n => exact absurd rfl h
  | real x => exact absurd rfl h
  | bool b => rfl
  | string s => rfl

end Datum

namespace Operator

theorem comparison?_numeric (op : Operator) {a b : Datum} (ha : a.sort.isNumeric)
    (hb : b.sort.isNumeric) : ∃ p, op.comparison? a b = some (.bool p) := by
  obtain ⟨x, hx⟩ := Datum.number?_of_isNumeric ha
  obtain ⟨y, hy⟩ := Datum.number?_of_isNumeric hb
  exact ⟨_, by rw [comparison?, hx, hy]⟩

/-- Equality of two values of any sort has a value. -/
theorem comparison?_same {op : Operator} {a b : Datum} (hs : a.sort = b.sort)
    (hop : op = .eq ∨ op = .ne) : ∃ p, op.comparison? a b = some (.bool p) := by
  by_cases ha : a.sort.isNumeric
  · exact comparison?_numeric op ha (hs ▸ ha)
  · rw [comparison?, Datum.number?_of_not_isNumeric ha, Datum.number?_of_not_isNumeric (hs ▸ ha)]
    rcases hop with rfl | rfl
    · exact ⟨_, if_pos ⟨hs, rfl⟩⟩
    · exact ⟨_, (if_neg (by simp)).trans (if_pos ⟨hs, rfl⟩)⟩

/-- An operator has a value wherever it has a term, and its sort is that of the term. -/
theorem result?_of_renders (A : Arithmetic) {op : Operator} {l r t : Term} {s : ValueSort}
    {a b : Datum} (h : Term.Renders op l r a.sort b.sort t s) :
    ∃ v, op.result? A a b = some v ∧ v.sort = s := by
  generalize hls : a.sort = ls at h
  generalize hrs : b.sort = rs at h
  unfold result?
  cases h with
  | numbers kind left right =>
    subst hls hrs
    rw [kind]
    obtain ⟨p, hp⟩ := comparison?_numeric op left right
    exact ⟨_, hp, rfl⟩
  | alike equality =>
    obtain ⟨p, hp⟩ := comparison?_same (hls.trans hrs.symm) equality
    rcases equality with rfl | rfl <;> exact ⟨_, hp, rfl⟩
  | power power left right =>
    subst hls hrs power
    cases a <;> cases left <;> cases b <;> cases right <;> exact ⟨_, rfl, rfl⟩
  | arithmetic kind other left right word =>
    subst hls hrs
    rw [kind]
    cases a <;> cases left <;> cases b <;> cases right <;> cases op <;> cases kind <;> cases word <;>
      exact ⟨_, rfl, rfl⟩
  | boolean kind =>
    rw [kind]
    cases a <;> cases hls
    cases b <;> cases hrs
    exact ⟨_, rfl, rfl⟩
  | stringPredicate kind =>
    rw [kind]
    cases a <;> cases hls
    cases b <;> cases hrs
    exact ⟨_, rfl, rfl⟩

end Operator

namespace Constant

theorem value?_of_term {v : Constant} {t : Term} (h : v.term = .ok t) :
    ∃ a, v.value? = some a ∧ a.sort = v.sort := by
  cases v with
  | int n => exact ⟨_, rfl, rfl⟩
  | real x =>
    by_cases hx : x.isFinite
    · exact ⟨_, by rw [value?, if_pos hx], rfl⟩
    · simp only [term, hx, Bool.not_false, if_true] at h
      cases h
  | bool b => exact ⟨_, rfl, rfl⟩
  | string s => exact ⟨_, rfl, rfl⟩

end Constant

namespace Expr

theorem mapM_number?_of_numericArgs {f : MathFunction} : ∀ {args : List Expr}
    {ts : List (Term × ValueSort)} {vs : List Datum},
    numericArgs f args = .ok () → terms args = .ok ts → vs.map Datum.sort = ts.map (·.2) →
      ∃ xs, vs.mapM Datum.number? = some xs
  | [], ts, vs, _, ht, hv => by
    rw [terms] at ht
    cases ht
    obtain rfl : vs = [] := by simpa using hv
    exact ⟨[], rfl⟩
  | e :: es, ts, vs, hn, ht, hv => by
    rw [terms] at ht
    obtain ⟨⟨t, s⟩, he, ht⟩ := bind_eq_ok.mp ht
    obtain ⟨ts', hes, ht⟩ := bind_eq_ok.mp ht
    cases ht
    obtain ⟨v, vs', rfl, hs, hvs⟩ := List.map_eq_cons_iff.mp hv
    rw [numericArgs, sort?_of_term he] at hn
    obtain ⟨s', hs', hn⟩ := bind_eq_ok.mp hn
    cases hs'
    split at hn
    · next hnum =>
      obtain ⟨x, hx⟩ := Datum.number?_of_isNumeric (a := v) (by rw [hs]; exact hnum)
      obtain ⟨xs, hxs⟩ := mapM_number?_of_numericArgs hn hes hvs
      exact ⟨x :: xs, by simp [hx, hxs]⟩
    · cases hn

section

variable (A : Arithmetic) (S : Symbols) (ρ : Inputs)

mutual

/-- An expression with a term has a value, whose sort is that of the term. -/
theorem eval_of_term : ∀ {e : Expr} {t : Term} {s : ValueSort},
    e.term = .ok (t, s) → ∃ v, e.eval A S ρ = some v ∧ v.sort = s
  | .const v, t, s, h => by
    rw [term] at h
    obtain ⟨t', ht, h⟩ := bind_eq_ok.mp h
    cases h
    rw [eval]
    exact Constant.value?_of_term ht
  | .var x s', t, s, h => by
    rw [term] at h
    obtain ⟨_, _, h⟩ := bind_eq_ok.mp h
    cases h
    exact ⟨_, by rw [eval], ρ.sort_value x _⟩
  | .uif f s' args, t, s, h => by
    rw [term] at h
    obtain ⟨ts, hts, h⟩ := bind_eq_ok.mp h
    obtain ⟨_, _, h⟩ := bind_eq_ok.mp h
    cases h
    obtain ⟨vs, hvs, -⟩ := evals_of_terms hts
    exact ⟨_, by rw [eval, hvs]; rfl, S.sort_uif f _ vs⟩
  | .math f args, t, s, h => by
    rw [term] at h
    obtain ⟨_, hs, h⟩ := bind_eq_ok.mp h
    obtain ⟨ts, hts, h⟩ := bind_eq_ok.mp h
    cases h
    obtain ⟨vs, hvs, hsorts⟩ := evals_of_terms hts
    rw [sort?] at hs
    split at hs
    · cases hs
    · obtain ⟨_, hn, -⟩ := bind_eq_ok.mp hs
      obtain ⟨xs, hxs⟩ := mapM_number?_of_numericArgs hn hts hsorts
      exact ⟨_, by rw [eval, hvs]; simp only [Option.pure_def, Option.bind_eq_bind,
        Option.bind_some, hxs]; rfl, rfl⟩
  | .binary op l r loc, t, s, h => by
    rw [term] at h
    obtain ⟨⟨l', ls⟩, hl, h⟩ := bind_eq_ok.mp h
    obtain ⟨⟨r', rs⟩, hr, h⟩ := bind_eq_ok.mp h
    obtain ⟨a, ha, rfl⟩ := eval_of_term hl
    obtain ⟨b, hb, rfl⟩ := eval_of_term hr
    obtain ⟨v, hv, hs⟩ := Operator.result?_of_renders A (Term.renders_of_binary h)
    exact ⟨v, by rw [eval, ha, hb]; exact hv, hs⟩

theorem evals_of_terms : ∀ {es : List Expr} {ts : List (Term × ValueSort)},
    terms es = .ok ts → ∃ vs, evals A S ρ es = some vs ∧ vs.map Datum.sort = ts.map (·.2)
  | [], ts, h => by
    rw [terms] at h
    cases h
    exact ⟨[], by rw [evals], rfl⟩
  | e :: es, ts, h => by
    rw [terms] at h
    obtain ⟨⟨t, s⟩, he, h⟩ := bind_eq_ok.mp h
    obtain ⟨ts', hes, h⟩ := bind_eq_ok.mp h
    cases h
    obtain ⟨v, hv, hs⟩ := eval_of_term he
    obtain ⟨vs, hvs, hss⟩ := evals_of_terms hes
    exact ⟨v :: vs, by rw [evals, hv, hvs]; rfl, by simp [hs, hss]⟩

end

end

/-- A comparison of numbers. -/
theorem holds_mk {A : Arithmetic} {S : Symbols} {ρ : Inputs} {op : Operator} {l r : Expr}
    {a b : Datum} {x y : ℝ} (hop : op.kind = .comparison) (hl : l.eval A S ρ = some a)
    (hr : r.eval A S ρ = some b) (ha : a.number? = some x) (hb : b.number? = some y) :
    (mk op l r).Holds A S ρ ↔ op.compares x y := by
  simp [Holds, mk, eval, hl, hr, Operator.result?, hop, Operator.comparison?, ha, hb]

/-! ## Uninterpreted symbols -/

def isLog : Expr → Bool
  | .math .log _ => true
  | _ => false

/-- Whether the logarithm occurs, which scripts do not define. -/
def hasLog (e : Expr) : Bool := e.nodes.any isLog

/-- Whether an uninterpreted symbol occurs. -/
def isAbstract (e : Expr) : Bool := e.hasUif || e.hasLog

theorem isAbstract_eq_false {e : Expr} :
    e.isAbstract = false ↔ ∀ n ∈ e.nodes, ¬ n.isUif ∧ ¬ n.isLog := by
  simp only [isAbstract, hasUif, hasLog, Bool.or_eq_false_iff, List.any_eq_false]
  constructor
  · exact fun h n hn => ⟨h.1 n hn, h.2 n hn⟩
  · exact fun h => ⟨fun n hn => (h n hn).1, fun n hn => (h n hn).2⟩

mutual

/-- The value of an expression without uninterpreted symbols does not depend on their meaning. -/
theorem eval_congr (A : Arithmetic) (S S' : Symbols) (ρ : Inputs) :
    ∀ {e : Expr}, (∀ n ∈ e.nodes, ¬ n.isUif ∧ ¬ n.isLog) → e.eval A S ρ = e.eval A S' ρ
  | .const v, _ => by rw [eval, eval]
  | .var x s, _ => by rw [eval, eval]
  | .uif f s args, h => absurd rfl (h _ List.mem_cons_self).1
  | .math f args, h => by
    have hf : f ≠ .log := by
      rintro rfl
      exact (h _ List.mem_cons_self).2 rfl
    have hfun : f.apply A S = f.apply A S' := by
      funext xs
      cases f <;> first | rfl | exact absurd rfl hf
    rw [eval, eval, evals_congr A S S' ρ fun n hn => h n (List.mem_cons_of_mem _ hn), hfun]
  | .binary op l r loc, h => by
    have hl : ∀ n ∈ l.nodes, ¬ n.isUif ∧ ¬ n.isLog := fun n hn =>
      h n (List.mem_cons_of_mem _ (List.mem_append_left _ hn))
    have hr : ∀ n ∈ r.nodes, ¬ n.isUif ∧ ¬ n.isLog := fun n hn =>
      h n (List.mem_cons_of_mem _ (List.mem_append_right _ hn))
    rw [eval, eval, eval_congr A S S' ρ hl, eval_congr A S S' ρ hr]

theorem evals_congr (A : Arithmetic) (S S' : Symbols) (ρ : Inputs) :
    ∀ {es : List Expr}, (∀ n ∈ nodesOf es, ¬ n.isUif ∧ ¬ n.isLog) →
      evals A S ρ es = evals A S' ρ es
  | [], _ => by rw [evals, evals]
  | e :: es, h => by
    rw [evals, evals, eval_congr A S S' ρ fun n hn => h n (List.mem_append_left _ hn),
      evals_congr A S S' ρ fun n hn => h n (List.mem_append_right _ hn)]

end

theorem holds_congr {A : Arithmetic} {S : Symbols} {ρ : Inputs} {e : Expr}
    (h : e.isAbstract = false) (S' : Symbols) : e.Holds A S ρ ↔ e.Holds A S' ρ := by
  rw [Holds, Holds, eval_congr A S S' ρ (isAbstract_eq_false.mp h)]

end Expr
end Regression
