import Regression.Proofs.Oracle.Relation
import Regression.Proofs.Oracle.Trace
import Regression.Proofs.Verdict

/-!
# Equal results are equal

The verdict on a partition is compared with what the versions do on the inputs that take its path.
The answers are only trusted as far as a statement needs it: `unsat` if the asserted conditions
cannot be true together, `sat` if they can, under some interpretation of the uninterpreted symbols.

* `Oracle.not_takenOn_of_classify_unreachable`: a path that is unreachable is never taken.
* `Oracle.agreesOn_of_classify_eq`: versions with equal results agree wherever the path is taken.
-/

namespace Regression

open Script

namespace Oracle

/-! ## Sound answers -/

/-- The query that asserts these conditions about a partition can get this answer. -/
def Tells (can : Event → Prop) (timeoutMs : UInt64) (p : Partition) (kind : QueryKind)
    (conditions : List Expr) (status : Status) : Prop :=
  p.conditions? kind = some conditions ∧ ∃ q answer,
    Query.build kind conditions timeoutMs = .ok q ∧ can (.asked q (.ok answer)) ∧
      answer.status = status

/-- Conditions about the partition are never true together if the answer can be `unsat`. -/
def RefutesSoundly (can : Event → Prop) (A : Arithmetic) (timeoutMs : UInt64) (p : Partition) :
    Prop :=
  ∀ kind conditions, Tells can timeoutMs p kind conditions .unsat →
    ¬ Expr.Satisfiable A conditions

/-- Conditions about the partition are true together somewhere if the answer can be `sat`. -/
def ConfirmsSoundly (can : Event → Prop) (A : Arithmetic) (timeoutMs : UInt64) (p : Partition) :
    Prop :=
  ∀ kind conditions, Tells can timeoutMs p kind conditions .sat → Expr.Satisfiable A conditions

section

variable {can : Event → Prop} {timeoutMs : UInt64} {iteration : UInt32} {p : Partition}
  {es : History} {status : Status}

/-- An answer about a partition is a possible one. -/
theorem Asks.tells {key : QueryKey} {conditions : List Expr}
    (h : Asks timeoutMs key conditions es (.ok status)) (hcan : ∀ e ∈ es, can e)
    (hkind : p.conditions? key.kind = some conditions) :
    Tells can timeoutMs p key.kind conditions status := by
  cases h with
  | @answered q answer build =>
    exact ⟨hkind, q, answer, build, hcan _ (by simp), rfl⟩

/-- An answer about two results tells whether they can agree, or whether they can differ. -/
theorem Relates.tells {key : QueryKey} {v1 v2 : Expr} {equal : Bool}
    (h : Relates timeoutMs key p.pc v1 v2 equal es (.ok status))
    (hcan : ∀ e ∈ es, can e) (h1 : p.v1.expr? = some v1) (h2 : p.v2.expr? = some v2)
    (hkind : key.kind = if equal then .eq else .neq) :
    ∃ relation, relate v1 v2 equal = .ok relation ∧
      Tells can timeoutMs p key.kind [p.pc, relation] status ∧
      ∀ A S ρ, ∃ a b, p.v1.value? A S ρ = some a ∧ p.v2.value? A S ρ = some b ∧
        (relation.Holds A S ρ ↔ (a.Agree b ↔ equal)) := by
  cases h with
  | @asked relation _ _ relation_eq asks =>
    have hconds : p.conditions? key.kind = some [p.pc, relation] := by
      have hrel : p.relation? equal = some relation := by
        rw [Partition.relation?, h1, h2]
        simp [relation_eq, Except.toOption]
      rw [hkind]
      cases equal with
      | true => simp [Partition.conditions?, hrel]
      | false => simp [Partition.conditions?, hrel]
    have htells := asks.tells hcan hconds
    refine ⟨relation, relation_eq, htells, ?_⟩
    intro A S ρ
    obtain ⟨-, q, -, hbuild, -⟩ := htells
    obtain ⟨t, ht⟩ := Query.assertion_of_build hbuild relation (by simp)
    rw [Outcome.value?_of_expr? h1, Outcome.value?_of_expr? h2]
    exact holds_relate relation_eq ht

/-- Where the path is taken, the results are not related in a way that was refuted. -/
theorem Relates.value?_of_unsat {A : Arithmetic} {S : Symbols} {ρ : Inputs} {key : QueryKey}
    {v1 v2 : Expr} {equal : Bool} (h : Relates timeoutMs key p.pc v1 v2 equal es (.ok .unsat))
    (sound : RefutesSoundly can A timeoutMs p) (hcan : ∀ e ∈ es, can e)
    (h1 : p.v1.expr? = some v1) (h2 : p.v2.expr? = some v2)
    (hkind : key.kind = if equal then .eq else .neq) (htaken : p.TakenOn A S ρ) :
    ∃ a b, p.v1.value? A S ρ = some a ∧ p.v2.value? A S ρ = some b ∧ ¬ (a.Agree b ↔ equal) := by
  obtain ⟨relation, -, htells, hvalues⟩ := h.tells hcan h1 h2 hkind
  obtain ⟨a, b, ha, hb, hrel⟩ := hvalues A S ρ
  refine ⟨a, b, ha, hb, fun hab => ?_⟩
  have hholds : relation.Holds A S ρ := hrel.mpr hab
  exact sound _ _ htells ⟨S, ρ, by simpa using ⟨htaken, hholds⟩⟩

/-- Somewhere on the path the results are related in a way that was confirmed. -/
theorem Relates.value?_of_sat {A : Arithmetic} {key : QueryKey} {v1 v2 : Expr} {equal : Bool}
    (h : Relates timeoutMs key p.pc v1 v2 equal es (.ok .sat))
    (sound : ConfirmsSoundly can A timeoutMs p) (hcan : ∀ e ∈ es, can e)
    (h1 : p.v1.expr? = some v1) (h2 : p.v2.expr? = some v2)
    (hkind : key.kind = if equal then .eq else .neq) :
    ∃ S ρ, p.TakenOn A S ρ ∧ ∃ a b, p.v1.value? A S ρ = some a ∧ p.v2.value? A S ρ = some b ∧
      (a.Agree b ↔ equal) := by
  obtain ⟨relation, -, htells, hvalues⟩ := h.tells hcan h1 h2 hkind
  obtain ⟨S, ρ, hholds⟩ := sound _ _ htells
  obtain ⟨a, b, ha, hb, hrel⟩ := hvalues A S ρ
  exact ⟨S, ρ, hholds _ (by simp), a, b, ha, hb, hrel.mp (hholds _ (by simp))⟩

/-! ## Raised errors -/

theorem compareRaised_neq_unsat {v1 v2 : Outcome} (h : (compareRaised v1 v2).neq = some .unsat) :
    ∃ error, v1 = .raised error ∧ v2 = .raised error := by
  unfold compareRaised at h
  split at h
  · next hsame =>
    simp only [Bool.and_eq_true, Option.isSome_iff_exists, decide_eq_true_eq] at hsame
    obtain ⟨⟨error, h1⟩, h2⟩ := hsame
    exact ⟨error, Outcome.eq_raised_of_raised? h1, Outcome.eq_raised_of_raised? (h2 ▸ h1)⟩
  · cases h

theorem compareRaised_neq_sat {v1 v2 : Outcome} (hraises : v1.expr? = none ∨ v2.expr? = none) :
    (compareRaised v1 v2).neq = some .sat ↔ v1.raised? ≠ v2.raised? := by
  unfold compareRaised
  split
  · next hsame =>
    simp only [Bool.and_eq_true, decide_eq_true_eq] at hsame
    simp [hsame.2]
  · next hdiff =>
    simp only [Bool.and_eq_true, decide_eq_true_eq, not_and] at hdiff
    refine iff_of_true rfl fun heq => ?_
    rcases hraises with h | h
    · obtain ⟨error, rfl⟩ := Outcome.raised_of_expr? h
      exact hdiff rfl heq
    · obtain ⟨error, rfl⟩ := Outcome.raised_of_expr? h
      exact hdiff (by rw [heq]; rfl) heq

theorem compareRaised_eq_unsat {v1 v2 : Outcome} (h : (compareRaised v1 v2).neq = some .sat) :
    (compareRaised v1 v2).eq = some .unsat := by
  unfold compareRaised at h ⊢
  split at h
  · cases h
  · next hdiff => rw [if_neg hdiff]

/-! ## Paths that are not taken -/

theorem not_takenOn_of_classify_unreachable {A : Arithmetic} {v : Verdict}
    (sound : RefutesSoundly can A timeoutMs p) (hcheck : Checks timeoutMs iteration p es v)
    (hcan : ∀ e ∈ es, can e) (hv : v.classify = .ok .unreachable) (S : Symbols)
    (ρ : Inputs) : ¬ p.TakenOn A S ρ := by
  obtain ⟨statuses, failure, runtime, hinv, rfl⟩ := hcheck
  have hpc : statuses.pc = some .unsat := Verdict.classify_eq_ok_unreachable.mp hv
  cases hinv with
  | failed => cases hpc
  | unreachable pc =>
    have htells := Asks.tells (p := p) pc hcan rfl
    intro htaken
    exact sound _ _ htells ⟨S, ρ, fun e he => List.mem_singleton.mp he ▸ htaken⟩
  | raised _ open_ => exact absurd (Option.some.inj hpc) open_
  | compared _ open_ _ _ compares =>
    cases compares <;> exact absurd (Option.some.inj hpc) open_

/-! ## Equal results -/

/-- Versions with equal results agree wherever the path is taken. -/
theorem agreesOn_of_classify_eq {A : Arithmetic} {v : Verdict}
    (sound : RefutesSoundly can A timeoutMs p) (hcheck : Checks timeoutMs iteration p es v)
    (hcan : ∀ e ∈ es, can e) (hv : v.classify = .ok .eq) (S : Symbols) (ρ : Inputs)
    (htaken : p.TakenOn A S ρ) : p.AgreesOn A S ρ := by
  obtain ⟨statuses, failure, runtime, hinv, rfl⟩ := hcheck
  obtain ⟨hpc, -, -, hneq, -⟩ := Verdict.classify_eq_ok_eq.mp hv
  change statuses.pc ≠ some .unsat at hpc
  change statuses.neq = some .unsat at hneq
  cases hinv with
  | failed => cases hneq
  | unreachable => exact absurd rfl hpc
  | raised => exact .inl (compareRaised_neq_unsat hneq)
  | @compared es es' _ _ _ _ _ _ v1_eq v2_eq compares =>
    cases compares with
    | failed => cases hneq
    | decided neq_eq =>
      cases hneq
      have hcan' : ∀ e ∈ es', can e := fun e he => hcan e (List.mem_append_right _ he)
      obtain ⟨a, b, ha, hb, hab⟩ := neq_eq.value?_of_unsat sound hcan' v1_eq v2_eq rfl htaken
      exact .inr ⟨a, b, ha, hb, by simpa using hab⟩
    | undecided => cases hneq
    | weighed => cases hneq

end

end Oracle

/-! ## Desks that answer by the kind of a query -/

/-- A desk whose answers only depend on the kind of the query. -/
def QueryDesk.answering {σ : Type} (status : QueryKind → Status) : QueryDesk (StateM σ) where
  now := pure .zero
  isCancelled := pure false
  ask q := pure (.ok { status := status q.kind })
  record _ _ _ := pure (.ok ())

theorem QueryDesk.tells_answering {σ : Type} {answer : QueryKind → Status} {timeoutMs : UInt64}
    {p : Partition} {kind : QueryKind} {conditions : List Expr} {status : Status}
    (h : Oracle.Tells (QueryDesk.answering (σ := σ) answer).CanEmit timeoutMs p kind conditions
      status) :
    p.conditions? kind = some conditions ∧ answer kind = status := by
  obtain ⟨hconds, q, _, hbuild, ⟨s, hask⟩, hstatus⟩ := h
  have hkind : q.kind = kind := Query.kind_of_build hbuild
  cases hask
  exact ⟨hconds, hkind ▸ hstatus⟩

end Regression
