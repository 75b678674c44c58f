import Regression.Proofs.Oracle.Difference
import Regression.Proofs.Oracle.Protocol

/-!
# Every verdict can be classified

The classification of a partition needs certain facts. The oracle leaves none of them out: either
it says why it failed, or it has found out whether the results can differ, and whether they can
agree where that matters.

* `Oracle.Investigates.complete`: what is known when nothing failed.
* `Oracle.exists_classify_check`: every verdict has a classification, and what it can be.
-/

namespace Regression

/-! ## Facts that suffice -/

/-- A comparison needs to know whether the results can differ, and whether they can agree if that is
not certain. It is never a failure. -/
theorem PartitionFacts.exists_compare {f : PartitionFacts} {neq : Status}
    (hneq : f.neqStatus = some neq) (heq : neq = .sat → f.hasUif → f.eqStatus ≠ none) :
    ∃ c, f.compare = .ok c ∧ c ∉ [.missing, .baseToolMissing, .timeout] ∧ c ≠ .error := by
  cases neq with
  | unsat =>
    refine ⟨_, compare_eq_ok.mpr (.inl ⟨hneq, rfl⟩), ?_⟩
    cases f.hasUifPc <;> simp
  | unknown =>
    exact ⟨.unknown, compare_eq_ok.mpr (.inr (.inr (.inr ⟨hneq, rfl⟩))), by simp, by simp⟩
  | sat =>
    by_cases hcertain : f.hasUif = false ∨ f.eqStatus = some .unsat
    · exact ⟨.neq, compare_eq_ok.mpr (.inr (.inl ⟨hneq, hcertain, rfl⟩)), by simp, by simp⟩
    · obtain ⟨hu, hunsat⟩ := not_or.mp hcertain
      have huif : f.hasUif = true := by simpa using hu
      obtain ⟨eq, hstatus⟩ := Option.ne_none_iff_exists'.mp (heq rfl huif)
      have hne : eq ≠ .unsat := fun h => hunsat (h ▸ hstatus)
      refine ⟨.maybeNeq, compare_eq_ok.mpr (.inr (.inr (.inl ?_))), by simp, by simp⟩
      exact ⟨hneq, huif, ⟨eq, hstatus, hne⟩, rfl⟩

/-- A verdict can be classified if no failure hides that the path is not taken, and if without a
failure the results can be compared. -/
theorem Verdict.exists_classify {v : Verdict} (hfailed : v.error.isSome → v.pcStatus ≠ some .unsat)
    (hcomplete : v.error = none → v.pcStatus ≠ some .unsat →
      ∃ neq, v.neqStatus = some neq ∧ (neq = .sat → v.hasUif → v.eqStatus ≠ none)) :
    ∃ c, v.classify = .ok c ∧ c ∉ [.missing, .baseToolMissing, .timeout] ∧
      (c = .error ↔ v.error.isSome) := by
  by_cases hpc : v.pcStatus = some .unsat
  · have herror : v.error = none := by
      by_contra hne
      exact hfailed (Option.isSome_iff_ne_none.mpr hne) hpc
    exact ⟨.unreachable, classify_eq_ok_unreachable.mpr hpc, by simp, by simp [herror]⟩
  have hclassify : v.classify = if v.isError then .ok .error else
      if v.depthLimited then .ok .depthLimited else (PartitionFacts.ofVerdict v).compare :=
    if_neg hpc
  rw [hclassify, isError]
  cases herror : v.error with
  | some text => exact ⟨.error, rfl, by simp, by simp⟩
  | none =>
    cases v.depthLimited with
    | true => exact ⟨.depthLimited, rfl, by simp, by simp⟩
    | false =>
      obtain ⟨neq, hneq, heq⟩ := hcomplete herror hpc
      obtain ⟨c, hcompare, hrange, hne⟩ :=
        PartitionFacts.exists_compare (f := .ofVerdict v) hneq heq
      exact ⟨c, hcompare, hrange, by simp [hne]⟩

namespace Oracle

/-! ## Facts that are found out -/

section

variable {timeoutMs : UInt64} {iteration : UInt32} {p : Partition} {es : History}
  {statuses : Statuses}

/-- If nothing failed on a path that may be taken, the results can be compared. -/
theorem Investigates.complete
    (investigates : Investigates timeoutMs iteration p es (statuses, none))
    (hpc : statuses.pc ≠ some .unsat) :
    ∃ neq, statuses.neq = some neq ∧ (neq = .sat → p.hasUif → statuses.eq ≠ none) := by
  cases investigates with
  | unreachable => exact absurd rfl hpc
  | raised =>
    rw [compareRaised]
    split
    · exact ⟨.unsat, rfl, by rintro ⟨⟩⟩
    · exact ⟨.sat, rfl, by simp⟩
  | compared _ _ _ _ compares =>
    cases compares with
    | @decided _ neq _ certain =>
      refine ⟨neq, rfl, fun hsat huif => ?_⟩
      rw [certain hsat] at huif
      cases huif
    | weighed => exact ⟨.sat, rfl, by simp⟩

/-- A path that is not taken is never a failure. -/
theorem Investigates.pc_ne_unsat {e : Failure}
    (investigates : Investigates timeoutMs iteration p es (statuses, some e)) :
    statuses.pc ≠ some .unsat := by
  cases investigates with
  | failed => simp
  | compared _ open_ _ _ compares => cases compares <;> simpa using open_

end

/-- What the classification of a verdict can be. -/
structure IsClassified (timeoutMs : UInt64) (iteration : UInt32) (p : Partition) (h : History)
    (v : Verdict) (c : Classification) : Prop where
  classify : v.classify = .ok c
  notMissing : c ≠ .missing ∧ c ≠ .baseToolMissing
  inTime : c ≠ .timeout
  error : c = .error ↔ v.error.isSome
  /-- The path is not taken, as an answer that was kept says. -/
  unreachable : c = .unreachable ↔ ∃ q answer, p.Poses timeoutMs .pc q ∧ .asked q (.ok answer) ∈ h ∧
    .recorded ⟨iteration, p.index, .pc⟩ q answer (.ok ()) ∈ h ∧ answer.status = .unsat

/-- The verdict of every investigation can be classified. -/
theorem Checks.exists_isClassified {timeoutMs : UInt64} {iteration : UInt32} {p : Partition}
    {h : History} {v : Verdict} (checks : Checks timeoutMs iteration p h v) :
    ∃ c, IsClassified timeoutMs iteration p h v c := by
  obtain ⟨statuses, failure, runtime, investigates, rfl⟩ := checks
  have protocol : FollowsProtocol timeoutMs iteration p h (conclude p statuses failure runtime) :=
    investigates.followsProtocol
  obtain ⟨c, hc, hrange, herror⟩ := Verdict.exists_classify
    (v := conclude p statuses failure runtime)
    (by
      intro hfailed
      cases failure with
      | none => cases hfailed
      | some e => exact investigates.pc_ne_unsat)
    (by
      intro hnone
      cases failure with
      | none => exact investigates.complete
      | some e => cases hnone)
  simp only [List.mem_cons, List.not_mem_nil, or_false, not_or] at hrange
  refine ⟨c, hc, ⟨hrange.1, hrange.2.1⟩, hrange.2.2, herror, ?_⟩
  have hunreachable : c = .unreachable ↔ (conclude p statuses failure runtime).pcStatus =
      some .unsat := by
    rw [← Verdict.classify_eq_ok_unreachable, hc, Except.ok.injEq]
  rw [hunreachable]
  refine (protocol.status .pc (.inl rfl) .unsat).trans ⟨?_, ?_⟩
  · rintro ⟨q, answer, hrecorded, hstatus⟩
    obtain ⟨hkey, hasked⟩ := protocol.recorded _ _ _ _ hrecorded
    have hkind : q.kind = .pc := (congrArg QueryKey.kind hkey).symm
    have hposed : p.Poses timeoutMs q.kind q :=
      protocol.posed q (List.mem_filterMap.mpr ⟨_, hasked, rfl⟩)
    exact ⟨q, answer, hkind ▸ hposed, hasked, hrecorded, hstatus⟩
  · rintro ⟨q, answer, -, -, hrecorded, hstatus⟩
    exact ⟨q, answer, hrecorded, hstatus⟩

/-- Every verdict can be classified, whatever the desk does. -/
theorem exists_classify_check {σ : Type} (desk : QueryDesk (StateM σ)) (timeoutMs : UInt64)
    (iteration : UInt32) (p : Partition) (s : σ) :
    ∃ c, IsClassified timeoutMs iteration p (checkHistory desk timeoutMs iteration p s)
      ((check desk timeoutMs iteration p).run s).1 c :=
  (checks_checkHistory desk timeoutMs iteration p s).1.exists_isClassified

end Oracle

end Regression
