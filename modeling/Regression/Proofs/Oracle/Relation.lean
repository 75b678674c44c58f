import Regression.Oracle
import Regression.Proofs.Expr.Evaluation

/-!
# What the queries about a partition ask

On given inputs a version returns a value or raises an error, and two versions agree there if they
return equal values or raise the same error. The three queries about a partition assert its path
condition, alone or with a relation of the two results.

* `holds_relate`: the relation that is asserted says that the results agree, or that they differ.
* `Query.assertion_of_build`: what a query asserts can be asserted.
-/

namespace Regression

open Script

/-! ## Agreement -/

section

variable (A : Arithmetic) (S : Symbols) (ρ : Inputs)

/-- What a version returns on some inputs. -/
noncomputable def Outcome.value? : Outcome → Option Datum
  | .concrete v => v.value?
  | .symbolic e => e.eval A S ρ
  | .raised _ => none

namespace Partition

/-- The path is taken. -/
def TakenOn (p : Partition) : Prop := p.pc.Holds A S ρ

/-- Both versions raise the same error, or return equal values. -/
def AgreesOn (p : Partition) : Prop :=
  (∃ error, p.v1 = .raised error ∧ p.v2 = .raised error) ∨
    ∃ a b, p.v1.value? A S ρ = some a ∧ p.v2.value? A S ρ = some b ∧ a.Agree b

/-- The versions return values that are not equal, or at least one of them raises an error that the
other one does not raise. -/
def DiffersOn (p : Partition) : Prop :=
  p.v1.raised? ≠ p.v2.raised? ∨
    ∃ a b, p.v1.value? A S ρ = some a ∧ p.v2.value? A S ρ = some b ∧ ¬ a.Agree b

end Partition

end

namespace Outcome

variable {A : Arithmetic} {S : Symbols} {ρ : Inputs} {o : Outcome}

theorem value?_of_expr? {e : Expr} (h : o.expr? = some e) : o.value? A S ρ = e.eval A S ρ := by
  cases o with
  | concrete v => cases h; rw [value?, Expr.eval]
  | symbolic e => cases h; rfl
  | raised error => cases h

theorem raised?_of_expr? {e : Expr} (h : o.expr? = some e) : o.raised? = none := by
  cases o with
  | concrete | symbolic => rfl
  | raised error => cases h

theorem raised_of_expr? (h : o.expr? = none) : ∃ error, o = .raised error := by
  cases o with
  | concrete | symbolic => cases h
  | raised error => exact ⟨error, rfl⟩

theorem raised?_of_value? {a : Datum} (h : o.value? A S ρ = some a) : o.raised? = none := by
  cases o with
  | concrete | symbolic => rfl
  | raised error => cases h

theorem eq_raised_of_raised? {error : String} (h : o.raised? = some error) :
    o = .raised error := by
  cases o with
  | concrete | symbolic => cases h
  | raised error' => cases h; rfl

end Outcome

/-- Versions that agree do not differ. -/
theorem Partition.AgreesOn.not_differsOn {A : Arithmetic} {S : Symbols} {ρ : Inputs} {p : Partition}
    (h : p.AgreesOn A S ρ) : ¬ p.DiffersOn A S ρ := by
  rcases h with ⟨error, h1, h2⟩ | ⟨a, b, ha, hb, hab⟩
  · rintro (hne | ⟨a, b, ha, -, -⟩)
    · exact hne (by rw [h1, h2])
    · rw [h1] at ha
      cases ha
  · rintro (hne | ⟨a', b', ha', hb', hab'⟩)
    · exact hne (by rw [Outcome.raised?_of_value? ha, Outcome.raised?_of_value? hb])
    · cases ha.symm.trans ha'
      cases hb.symm.trans hb'
      exact hab' hab

/-! ## Uninterpreted symbols -/

/-- Whether the logarithm occurs. -/
def Outcome.hasLog : Outcome → Bool
  | .symbolic e => e.hasLog
  | _ => false

/-- Whether the logarithm occurs on this path. -/
def Partition.hasLog (p : Partition) : Bool := p.pc.hasLog || p.v1.hasLog || p.v2.hasLog

theorem Outcome.value?_congr {A : Arithmetic} {S : Symbols} {ρ : Inputs} {o : Outcome}
    (huif : o.hasUif = false) (hlog : o.hasLog = false) (S' : Symbols) :
    o.value? A S ρ = o.value? A S' ρ := by
  cases o with
  | concrete | raised => rfl
  | symbolic e =>
    have habs : e.isAbstract = false := Bool.or_eq_false_iff.mpr ⟨huif, hlog⟩
    exact Expr.eval_congr A S S' ρ (Expr.isAbstract_eq_false.mp habs)

namespace Partition

variable {A : Arithmetic} {S : Symbols} {ρ : Inputs} {p : Partition}

theorem takenOn_congr (h : p.pc.isAbstract = false) (S' : Symbols) :
    p.TakenOn A S ρ ↔ p.TakenOn A S' ρ :=
  Expr.holds_congr h S'

/-- Without uninterpreted symbols it does not depend on them where the versions differ. -/
theorem differsOn_congr (huif : p.hasUif = false) (hlog : p.hasLog = false) (S' : Symbols) :
    p.DiffersOn A S ρ ↔ p.DiffersOn A S' ρ := by
  simp only [hasUif, hasLog, Bool.or_eq_false_iff] at huif hlog
  rw [DiffersOn, DiffersOn, Outcome.value?_congr huif.1.2 hlog.1.2 S',
    Outcome.value?_congr huif.2 hlog.2 S']

theorem isAbstract_pc (huif : p.hasUif = false) (hlog : p.hasLog = false) :
    p.pc.isAbstract = false := by
  simp only [hasUif, hasLog, Bool.or_eq_false_iff] at huif hlog
  exact Bool.or_eq_false_iff.mpr ⟨huif.1.1, hlog.1.1⟩

end Partition

/-! ## Relations of results -/

namespace Datum

theorem agree_iff_of_number? {a b : Datum} {x y : ℝ} (ha : a.number? = some x)
    (hb : b.number? = some y) : a.Agree b ↔ x = y := by
  cases a <;> cases ha <;> cases b <;> cases hb <;> simp [Agree, promoted]

theorem promoted_of_not_isNumeric {a : Datum} (h : ¬ a.sort.isNumeric) : a.promoted = a := by
  cases a with
  | int n => exact absurd rfl h
  | real | bool | string => rfl

theorem agree_iff_of_not_isNumeric {a b : Datum} (hs : a.sort = b.sort)
    (ha : ¬ a.sort.isNumeric) : a.Agree b ↔ a = b := by
  rw [Agree, promoted_of_not_isNumeric ha, promoted_of_not_isNumeric (hs ▸ ha)]

end Datum

namespace Operator

/-- Equality of two values that can be compared. -/
theorem comparison?_equality {a b : Datum} {equal : Bool}
    (h : a.sort.isNumeric ∧ b.sort.isNumeric ∨ a.sort = b.sort) :
    (if equal then Operator.eq else Operator.ne).comparison? a b = some (.bool true) ↔
      (a.Agree b ↔ equal) := by
  by_cases hn : a.sort.isNumeric ∧ b.sort.isNumeric
  · obtain ⟨x, hx⟩ := Datum.number?_of_isNumeric hn.1
    obtain ⟨y, hy⟩ := Datum.number?_of_isNumeric hn.2
    rw [Datum.agree_iff_of_number? hx hy, comparison?, hx, hy]
    cases equal <;> simp [compares]
  · have hs : a.sort = b.sort := h.resolve_left hn
    have ha : ¬ a.sort.isNumeric := fun h' => hn ⟨h', hs ▸ h'⟩
    rw [Datum.agree_iff_of_not_isNumeric hs ha, comparison?, Datum.number?_of_not_isNumeric ha,
      Datum.number?_of_not_isNumeric (hs ▸ ha)]
    cases equal <;> simp [hs]

/-- Equality of two texts. -/
theorem stringPredicate?_equality {s t : String} {equal : Bool} :
    (if equal then Operator.equals else Operator.notEquals).stringPredicate? (.string s)
      (.string t) = some (.bool true) ↔ ((Datum.string s).Agree (.string t) ↔ equal) := by
  have h : (Datum.string s).Agree (.string t) ↔ s.toList = t.toList := by
    simp [Datum.Agree, Datum.promoted, String.ext_iff]
  rw [h]
  cases equal <;> simp [stringPredicate?, relatesTexts]

end Operator

namespace Oracle

variable {A : Arithmetic} {S : Symbols} {ρ : Inputs}

/-- The relation of two results says that they agree, or that they differ. -/
theorem holds_relate {v1 v2 relation : Expr} {equal : Bool} {t : Term}
    (hrel : relate v1 v2 equal = .ok relation) (ht : assertion relation = .ok t) :
    ∃ a b, v1.eval A S ρ = some a ∧ v2.eval A S ρ = some b ∧
      (relation.Holds A S ρ ↔ (a.Agree b ↔ equal)) := by
  rw [relate] at hrel
  obtain ⟨s, hs, hrel⟩ := bind_eq_ok.mp hrel
  cases hrel
  rw [assertion] at ht
  obtain ⟨⟨t', s'⟩, hterm, ht⟩ := bind_eq_ok.mp ht
  rw [Expr.mk, Expr.term] at hterm
  obtain ⟨⟨l, ls⟩, hl, hterm⟩ := bind_eq_ok.mp hterm
  obtain ⟨⟨r, rs⟩, hr, hbin⟩ := bind_eq_ok.mp hterm
  obtain ⟨a, ha, rfl⟩ := Expr.eval_of_term A S ρ hl
  obtain ⟨b, hb, rfl⟩ := Expr.eval_of_term A S ρ hr
  rw [Expr.sort?_of_term hl] at hs
  cases hs
  refine ⟨a, b, ha, hb, ?_⟩
  rw [Expr.Holds, Expr.mk, Expr.eval, ha, hb]
  by_cases hstr : a.sort = .string
  · simp only [hstr, if_true] at hbin ⊢
    have hrs : b.sort = .string := by
      by_contra hne
      cases equal <;> simp [Term.binary, Operator.kind, hne] at hbin
    cases a <;> cases hstr
    cases b <;> cases hrs
    cases equal <;> exact Operator.stringPredicate?_equality
  · simp only [hstr, if_false] at hbin ⊢
    have hcmp : a.sort.isNumeric ∧ b.sort.isNumeric ∨ a.sort = b.sort := by
      by_contra hne
      obtain ⟨hnum, hne⟩ := not_or.mp hne
      cases equal <;> simp [Term.binary, Operator.kind, hnum, hne] at hbin
    cases equal <;> exact Operator.comparison?_equality hcmp

end Oracle

/-! ## Queries -/

namespace Partition

/-- The condition that the results are equal, or that they differ, if both versions return. -/
def relation? (p : Partition) (equal : Bool) : Option Expr := do
  (Oracle.relate (← p.v1.expr?) (← p.v2.expr?) equal).toOption

/-- The conditions that a query about a partition asserts. -/
def conditions? (p : Partition) : QueryKind → Option (List Expr)
  | .pc => some [p.pc]
  | .neq => (p.relation? false).map ([p.pc, ·])
  | .eq => (p.relation? true).map ([p.pc, ·])

end Partition

theorem assertion_of_assertions? : ∀ {conditions : List Expr} {d d' : Declarations}
    {ts : List Term}, assertions? d conditions = .ok (d', ts) →
      ∀ e ∈ conditions, ∃ t, assertion e = .ok t
  | [], _, _, _, _ => by simp
  | e :: es, d, d', ts, h => by
    rw [assertions?] at h
    obtain ⟨_, _, h⟩ := bind_eq_ok.mp h
    obtain ⟨t, ht, h⟩ := bind_eq_ok.mp h
    obtain ⟨⟨_, _⟩, hes, _⟩ := bind_eq_ok.mp h
    intro e' he'
    rcases List.mem_cons.mp he' with rfl | he'
    · exact ⟨t, ht⟩
    · exact assertion_of_assertions? hes e' he'

theorem Query.kind_of_build {kind : QueryKind} {conditions : List Expr} {timeoutMs : UInt64}
    {q : Query} (h : Query.build kind conditions timeoutMs = .ok q) : q.kind = kind := by
  rw [Query.build] at h
  obtain ⟨_, -, h⟩ := bind_eq_ok.mp h
  cases h
  rfl

/-- There is no query if there is no script. -/
theorem Query.script_of_build {kind : QueryKind} {conditions : List Expr} {timeoutMs : UInt64}
    {m : Malformed} (h : Query.build kind conditions timeoutMs = .error m) :
    ofAssertions conditions timeoutMs = .error m := by
  rw [Query.build] at h
  rcases eq_error_of_bind h with hscript | ⟨_, -, hquery⟩
  · exact hscript
  · cases hquery

/-- A query can only be built of conditions that have terms. -/
theorem Query.assertion_of_build {kind : QueryKind} {conditions : List Expr} {timeoutMs : UInt64}
    {q : Query} (h : Query.build kind conditions timeoutMs = .ok q) :
    ∀ e ∈ conditions, ∃ t, assertion e = .ok t := by
  rw [Query.build] at h
  obtain ⟨_, h, -⟩ := bind_eq_ok.mp h
  rw [ofAssertions] at h
  obtain ⟨⟨_, _⟩, h, -⟩ := bind_eq_ok.mp h
  exact assertion_of_assertions? h

end Regression
