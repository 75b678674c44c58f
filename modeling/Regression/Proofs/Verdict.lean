import Regression.Verdict

/-!
# Classifications of verdicts

What a verdict must have found out to be classified as equal or as different.

* `PartitionFacts.compare_eq_ok`: all ways in which a comparison of the results can end.
* `Verdict.classify_eq_ok_unreachable`: a path that is not taken needs nothing else.
* `Verdict.classify_eq_ok_eq`, `Verdict.classify_eq_ok_neq`: the definite classifications.
-/

namespace Regression

namespace PartitionFacts

variable {f : PartitionFacts}

/-- What a comparison of the results comes to. -/
theorem compare_eq_ok {c : Classification} : f.compare = .ok c ↔
    f.neqStatus = some .unsat ∧ (if f.hasUifPc then .maybeEq else .eq) = c ∨
      f.neqStatus = some .sat ∧ (f.hasUif = false ∨ f.eqStatus = some .unsat) ∧ .neq = c ∨
      f.neqStatus = some .sat ∧ f.hasUif ∧ (∃ eq, f.eqStatus = some eq ∧ eq ≠ .unsat) ∧
        .maybeNeq = c ∨
      f.neqStatus = some .unknown ∧ .unknown = c := by
  unfold compare
  cases hneq : f.neqStatus with
  | none => simp
  | some neq =>
    cases neq with
    | unsat | unknown => simp
    | sat =>
      cases hu : f.hasUif with
      | false => simp
      | true =>
        cases heq : f.eqStatus with
        | none => simp
        | some eq => cases eq <;> simp

theorem compare_eq_ok_eq :
    f.compare = .ok .eq ↔ f.neqStatus = some .unsat ∧ f.hasUifPc = false := by
  rw [compare_eq_ok]
  cases f.hasUifPc <;> simp

theorem compare_eq_ok_neq : f.compare = .ok .neq ↔
    f.neqStatus = some .sat ∧ (f.hasUif = false ∨ f.eqStatus = some .unsat) := by
  rw [compare_eq_ok]
  cases f.hasUifPc <;> simp

theorem compare_ne_unreachable : f.compare ≠ .ok .unreachable := by
  rw [ne_eq, compare_eq_ok]
  cases f.hasUifPc <;> simp

/-- Only a complete analysis of a path that may be taken leads to a comparison. -/
theorem classify_eq_ok_iff {c : Classification} (hm : f.isMissing = false)
    (hb : f.isBaseToolMissing = false)
    (hc : c ≠ .unreachable ∧ c ≠ .error ∧ c ≠ .timeout ∧ c ≠ .depthLimited) :
    f.classify = .ok c ↔ f.pcStatus ≠ some .unsat ∧ f.isError = false ∧ f.isTimeout = false ∧
      f.isDepthLimited = false ∧ f.compare = .ok c := by
  obtain ⟨hu, he, ht, hd⟩ := hc
  unfold classify
  rw [hm, hb]
  by_cases hpc : f.pcStatus = some .unsat
  · simp [hpc, hu.symm]
  · cases f.isError <;> cases f.isTimeout <;> cases f.isDepthLimited <;>
      simp [hpc, he.symm, ht.symm, hd.symm]

theorem classify_eq_ok_unreachable (hm : f.isMissing = false) (hb : f.isBaseToolMissing = false) :
    f.classify = .ok .unreachable ↔ f.pcStatus = some .unsat := by
  unfold classify
  rw [hm, hb]
  by_cases hpc : f.pcStatus = some .unsat
  · simp [hpc]
  · cases f.isError <;> cases f.isTimeout <;> cases f.isDepthLimited <;>
      simp [hpc, compare_ne_unreachable]

end PartitionFacts

namespace Verdict

variable {v : Verdict}

theorem classify_eq_ok_unreachable :
    v.classify = .ok .unreachable ↔ v.pcStatus = some .unsat :=
  PartitionFacts.classify_eq_ok_unreachable rfl rfl

theorem classify_eq_ok_eq : v.classify = .ok .eq ↔
    v.pcStatus ≠ some .unsat ∧ v.error = none ∧ v.depthLimited = false ∧
      v.neqStatus = some .unsat ∧ v.hasUifPc = false := by
  rw [classify, PartitionFacts.classify_eq_ok_iff rfl rfl (by decide),
    PartitionFacts.compare_eq_ok_eq]
  simp [PartitionFacts.ofVerdict, isError]

theorem classify_eq_ok_neq : v.classify = .ok .neq ↔
    v.pcStatus ≠ some .unsat ∧ v.error = none ∧ v.depthLimited = false ∧
      v.neqStatus = some .sat ∧ (v.hasUif = false ∨ v.eqStatus = some .unsat) := by
  rw [classify, PartitionFacts.classify_eq_ok_iff rfl rfl (by decide),
    PartitionFacts.compare_eq_ok_neq]
  simp [PartitionFacts.ofVerdict, isError, hasUif, PartitionFacts.hasUif]

end Verdict

end Regression
