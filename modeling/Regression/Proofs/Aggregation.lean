import Regression.Aggregation

/-!
# Dominating classifications

The classification of an iteration dominates those of all partitions whose path is taken.

* `dominance_foldPartitions_le`: nothing dominates it.
* `foldPartitions_eq_eq`: it is equality only if all these partitions are equal.
* `stopAfter?_eq_some`, `stopAfter?_eq_none`: when a run stops after an iteration.
-/

namespace Regression

namespace Classification

theorem dominance_stronger_le (a b : Classification) :
    (stronger a b).dominance ≤ a.dominance ∧ (stronger a b).dominance ≤ b.dominance := by
  unfold stronger
  split <;> omega

theorem dominance_foldl_le (a : Classification) (l : List Classification) :
    (l.foldl stronger a).dominance ≤ a.dominance ∧
      ∀ c ∈ l, (l.foldl stronger a).dominance ≤ c.dominance := by
  induction l generalizing a with
  | nil => simp
  | cons b l ih =>
    obtain ⟨hfold, hall⟩ := ih (stronger a b)
    obtain ⟨ha, hb⟩ := dominance_stronger_le a b
    rw [List.foldl_cons]
    refine ⟨by omega, List.forall_mem_cons.mpr ⟨by omega, hall⟩⟩

theorem foldl_stronger_mem (a : Classification) (l : List Classification) :
    l.foldl stronger a ∈ a :: l := by
  induction l generalizing a with
  | nil => simp
  | cons b l ih =>
    rw [List.foldl_cons]
    rcases List.mem_cons.mp (ih (stronger a b)) with h | h
    · rw [h, stronger]
      split <;> simp
    · exact List.mem_cons_of_mem _ (List.mem_cons_of_mem _ h)

end Classification

/-- No partition whose path is taken dominates the iteration. -/
theorem dominance_foldPartitions_le {classes : List Classification} {c : Classification}
    (hc : c ∈ classes) (htaken : c ≠ .unreachable) :
    (foldPartitions classes).dominance ≤ c.dominance := by
  have hfilter : c ∈ classes.filter (· ≠ .unreachable) :=
    List.mem_filter.mpr ⟨hc, by simpa using htaken⟩
  unfold foldPartitions
  cases hl : classes.filter (· ≠ .unreachable) with
  | nil =>
    rw [hl] at hfilter
    cases hfilter
  | cons first rest =>
    rw [hl] at hfilter
    obtain ⟨hfirst, hrest⟩ := Classification.dominance_foldl_le first rest
    rcases List.mem_cons.mp hfilter with rfl | hmem
    · exact hfirst
    · exact hrest c hmem

/-- The classification of an iteration is that of a partition, or it is unknown. -/
theorem foldPartitions_mem (classes : List Classification) :
    foldPartitions classes ∈ classes ∨ foldPartitions classes = .unknown := by
  unfold foldPartitions
  cases hl : classes.filter (· ≠ .unreachable) with
  | nil => exact .inr rfl
  | cons first rest =>
    have hmem := Classification.foldl_stronger_mem first rest
    rw [← hl] at hmem
    exact .inl (List.mem_filter.mp hmem).1

/-- Versions count as equal in an iteration only if they do on all paths that are taken, of which
there is at least one. -/
theorem foldPartitions_eq_eq {classes : List Classification} (h : foldPartitions classes = .eq) :
    .eq ∈ classes ∧ ∀ c ∈ classes, c = .eq ∨ c = .unreachable := by
  constructor
  · rcases foldPartitions_mem classes with hmem | hunknown
    · exact h ▸ hmem
    · rw [h] at hunknown
      cases hunknown
  · intro c hc
    by_cases htaken : c = .unreachable
    · exact .inr htaken
    · have hle := dominance_foldPartitions_le hc htaken
      rw [h] at hle
      cases c <;> simp_all [Classification.dominance]

/-! ## Stopping -/

theorem stopAfter?_eq_some {result : Classification} {canIterate : Bool} {reason : StopReason}
    (h : stopAfter? result canIterate = some reason) :
    reason = .final result ∨ reason = .singleIteration := by
  unfold stopAfter? at h
  split at h
  · exact .inl (Option.some.inj h).symm
  · split at h
    · exact .inr (Option.some.inj h).symm
    · cases h

/-- A run goes on only if its tool can iterate. -/
theorem stopAfter?_eq_none {result : Classification} {canIterate : Bool}
    (h : stopAfter? result canIterate = none) : result.isFinal = false ∧ canIterate = true := by
  unfold stopAfter? at h
  split at h
  · cases h
  · next hfinal =>
    split at h
    · cases h
    · next hiterate => exact ⟨by simpa using hfinal, by simpa using hiterate⟩

end Regression
