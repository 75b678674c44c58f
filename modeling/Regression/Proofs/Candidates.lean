import Regression.Refinement.Candidates

/-!
# Which units are candidates

A heuristic narrows and orders the shared units that have not been refined, but it leaves none only
if there are none.

* `Heuristic.select?_eq_some`: a selected unit is shared and has not been refined.
* `Heuristic.select?_eq_none`: nothing is selected only if all shared units have been refined.
-/

namespace Regression

namespace Heuristic

variable {heuristic : Heuristic} {units : AbstractionSummary} {refined inconclusive : NameSet}

theorem of_mem_eligible {u : AbstractedUnit}
    (h : u ∈ heuristic.eligible units refined inconclusive) :
    u ∈ units.shared ∧ u.name ∉ refined := by
  have hunrefined : u ∈ units.shared.filter (·.name ∉ refined) := by
    simp only [eligible] at h
    split at h
    · exact (List.mem_filter.mp h).1
    · exact h
  simpa using List.mem_filter.mp hunrefined

/-- Whatever the heuristic drops, it keeps something if there is something. -/
theorem eligible_eq_nil (h : heuristic.eligible units refined inconclusive = []) :
    ∀ u ∈ units.shared, u.name ∈ refined := by
  have hunrefined : units.shared.filter (·.name ∉ refined) = [] := by
    simp only [eligible] at h
    split at h
    · next hoccurring =>
      rw [h] at hoccurring
      simp at hoccurring
    · exact h
  simpa using List.filter_eq_nil_iff.mp hunrefined

theorem mem_candidates {u : AbstractedUnit} :
    u ∈ heuristic.candidates units refined inconclusive ↔
      u ∈ heuristic.eligible units refined inconclusive :=
  List.mem_mergeSort

/-- A selected unit is shared and has not been refined. -/
theorem select?_eq_some {u : AbstractedUnit}
    (h : heuristic.select? units refined inconclusive = some u) :
    u ∈ units.shared ∧ u.name ∉ refined :=
  of_mem_eligible (mem_candidates.mp (List.mem_of_head? h))

/-- Nothing is selected only if all shared units have been refined. -/
theorem select?_eq_none (h : heuristic.select? units refined inconclusive = none) :
    ∀ u ∈ units.shared, u.name ∈ refined := by
  have hcandidates : heuristic.candidates units refined inconclusive = [] :=
    List.head?_eq_none_iff.mp h
  have heligible : heuristic.eligible units refined inconclusive = [] := by
    refine List.eq_nil_iff_forall_not_mem.mpr fun u hu => ?_
    have hmem := mem_candidates.mpr hu
    rw [hcandidates] at hmem
    cases hmem
  exact eligible_eq_nil heligible

end Heuristic

end Regression
