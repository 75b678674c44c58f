import Regression.Proofs.Aggregation

/-!
# Laws of aggregation

The classifications of paths that are taken are ranked. A list of them is led by the member that
dominates all others, and there is one leader at most. An iteration is classified by the leader of
its partitions, so that nothing matters but which classifications occur among them.

* `Classification.Leads.unique`: lists with the same members have the same leader.
* `leads_foldPartitions`: the classification of an iteration leads those of the taken paths.
* `Aggregates`: what follows for lists with the same members, longer lists and lists put together.
* `aggregation_laws`: these laws hold whatever went wrong with the iteration.
-/

namespace Regression

namespace Classification

/-! ## The ranking -/

/-- The classifications of paths that are taken, the strongest first. -/
def ranking : List Classification :=
  [.missing, .baseToolMissing, .error, .timeout, .neq, .maybeNeq, .depthLimited, .unknown, .maybeEq,
    .eq]

/-- One classification is ranked before another one. -/
def Dominates (c d : Classification) : Prop := [c, d].Sublist ranking

instance (c d : Classification) : Decidable (c.Dominates d) :=
  inferInstanceAs (Decidable ([c, d].Sublist ranking))

theorem Dominates.asymm {c d : Classification} (h : c.Dominates d) : ¬ d.Dominates c := by
  revert h
  cases c <;> cases d <;> decide

theorem eq_or_dominates {c d : Classification} (hd : d ≠ .unreachable)
    (hle : c.dominance ≤ d.dominance) : d = c ∨ c.Dominates d := by
  revert hd hle
  cases c <;> cases d <;> decide

/-! ## Leaders -/

/-- A member that dominates all others. -/
structure Leads (c : Classification) (classes : List Classification) : Prop where
  mem : c ∈ classes
  dominates : ∀ d ∈ classes, d = c ∨ c.Dominates d

instance (c : Classification) (classes : List Classification) : Decidable (c.Leads classes) :=
  decidable_of_iff (c ∈ classes ∧ ∀ d ∈ classes, d = c ∨ c.Dominates d)
    ⟨fun h => ⟨h.1, h.2⟩, fun h => ⟨h.mem, h.dominates⟩⟩

/-- The leader of more classifications is the same one, or it dominates. -/
theorem Leads.of_subset {c d : Classification} {classes others : List Classification}
    (hc : c.Leads classes) (hd : d.Leads others) (more : classes ⊆ others) :
    d = c ∨ d.Dominates c :=
  (hd.dominates c (more hc.mem)).imp_left Eq.symm

/-- Lists with the same members have the same leader. -/
theorem Leads.unique {c d : Classification} {classes others : List Classification}
    (hc : c.Leads classes) (hd : d.Leads others) (same : ∀ b, b ∈ classes ↔ b ∈ others) :
    c = d := by
  have hdc := hc.of_subset hd fun b => (same b).mp
  have hcd := hd.of_subset hc fun b => (same b).mpr
  rcases hdc with heq | hlt
  · exact heq.symm
  · exact hcd.resolve_right hlt.asymm

/-- The leader of two lists together leads the leaders of both. -/
theorem Leads.of_append {c d b : Classification} {classes others : List Classification}
    (hc : c.Leads classes) (hd : d.Leads others) (hb : b.Leads (classes ++ others)) :
    b.Leads [c, d] := by
  have hbc := hc.of_subset hb (List.subset_append_left _ _)
  have hbd := hd.of_subset hb (List.subset_append_right _ _)
  have hmem : b = c ∨ b = d := by
    rcases List.mem_append.mp hb.mem with hmem | hmem
    · have hcb := hc.dominates b hmem
      exact .inl (hcb.elim id fun hlt => hbc.resolve_right hlt.asymm)
    · have hdb := hd.dominates b hmem
      exact .inr (hdb.elim id fun hlt => hbd.resolve_right hlt.asymm)
  refine ⟨by simpa using hmem, List.forall_mem_cons.mpr ⟨hbc.imp_left Eq.symm, ?_⟩⟩
  exact List.forall_mem_singleton.mpr (hbd.imp_left Eq.symm)

end Classification

/-! ## Partitions -/

open Classification

/-- Some partition's path is taken. -/
def IsTaken (classes : List Classification) : Prop := ∃ c ∈ classes, c ≠ .unreachable

theorem mem_filter_taken {c : Classification} {classes : List Classification} :
    c ∈ classes.filter (· ≠ .unreachable) ↔ c ∈ classes ∧ c ≠ .unreachable := by
  simp

theorem foldPartitions_mem_taken {classes : List Classification} (h : IsTaken classes) :
    foldPartitions classes ∈ classes.filter (· ≠ .unreachable) := by
  obtain ⟨c, hc⟩ := h
  have hmem := mem_filter_taken.mpr hc
  unfold foldPartitions
  cases hl : classes.filter (· ≠ .unreachable) with
  | nil =>
    rw [hl] at hmem
    cases hmem
  | cons first rest => exact foldl_stronger_mem first rest

theorem leads_foldPartitions {classes : List Classification} (h : IsTaken classes) :
    (foldPartitions classes).Leads (classes.filter (· ≠ .unreachable)) := by
  refine ⟨foldPartitions_mem_taken h, ?_⟩
  intro d hd
  obtain ⟨hmem, htaken⟩ := mem_filter_taken.mp hd
  exact eq_or_dominates htaken (dominance_foldPartitions_le hmem htaken)

theorem foldPartitions_eq_unknown {classes : List Classification} (h : ¬ IsTaken classes) :
    foldPartitions classes = .unknown := by
  have hnone : classes.filter (· ≠ .unreachable) = [] :=
    List.eq_nil_iff_forall_not_mem.mpr fun c hc => h ⟨c, mem_filter_taken.mp hc⟩
  unfold foldPartitions
  rw [hnone]

/-! ## Iterations -/

/-- A way to classify an iteration for which nothing matters but which classifications occur among
the paths that are taken, and for which more of them count at least as much. -/
structure Aggregates (f : List Classification → Classification) : Prop where
  congr {classes others : List Classification}
    (same : ∀ c, c ≠ .unreachable → (c ∈ classes ↔ c ∈ others)) : f classes = f others
  grow {classes others : List Classification} (taken : IsTaken classes) (more : classes ⊆ others) :
    f others = f classes ∨ (f others).Dominates (f classes)
  append {classes others : List Classification} (taken : IsTaken classes)
    (taken_others : IsTaken others) : (f (classes ++ others)).Leads [f classes, f others]

theorem aggregates_foldPartitions : Aggregates foldPartitions where
  congr {classes others} same := by
    have hfilter (c : Classification) : c ∈ classes.filter (· ≠ .unreachable) ↔
        c ∈ others.filter (· ≠ .unreachable) := by
      rw [mem_filter_taken, mem_filter_taken]
      exact and_congr_left (same c)
    have htaken : IsTaken classes ↔ IsTaken others :=
      exists_congr fun c => and_congr_left (same c)
    by_cases h : IsTaken classes
    · exact (leads_foldPartitions h).unique (leads_foldPartitions (htaken.mp h)) hfilter
    · rw [foldPartitions_eq_unknown h, foldPartitions_eq_unknown (mt htaken.mpr h)]
  grow {classes others} taken more := by
    have hothers : IsTaken others := taken.imp fun c hc => ⟨more hc.1, hc.2⟩
    refine (leads_foldPartitions taken).of_subset (leads_foldPartitions hothers) fun c hc => ?_
    exact mem_filter_taken.mpr ((mem_filter_taken.mp hc).imp_left fun hmem => more hmem)
  append {classes others} taken taken_others := by
    have hboth : IsTaken (classes ++ others) :=
      taken.imp fun c hc => ⟨List.mem_append_left _ hc.1, hc.2⟩
    have hlead := leads_foldPartitions hboth
    rw [List.filter_append] at hlead
    exact (leads_foldPartitions taken).of_append (leads_foldPartitions taken_others) hlead

/-- What is not looked at does not matter. -/
theorem aggregates_const (c : Classification) : Aggregates fun _ => c where
  congr _ := rfl
  grow _ _ := .inl rfl
  append _ _ := ⟨by simp, by simp⟩

/-- The classification that flags alone decide. -/
def IterationFlags.class? (flags : IterationFlags) : Option Classification :=
  if flags.isError then some .error else if flags.isTimeout then some .timeout else none

theorem classifyIteration_eq (classes : List Classification) (flags : IterationFlags) :
    classifyIteration classes flags = flags.class?.getD (foldPartitions classes) := by
  unfold classifyIteration IterationFlags.class?
  split
  · rfl
  · split <;> rfl

theorem aggregates_classifyIteration (flags : IterationFlags) :
    Aggregates (classifyIteration · flags) := by
  simp only [classifyIteration_eq]
  cases flags.class? with
  | none => exact aggregates_foldPartitions
  | some c => exact aggregates_const c

/-- The classification of an iteration is the leader of the paths that are taken; without one it is
unknown. Order, repetition and paths that are not taken do not matter, more partitions do not make
it weaker, and iterations put together are classified by the leader of both. This holds for
iterations with the same flags as well; but if flags decide the classification, the partitions do
not. -/
theorem aggregation_laws :
    Aggregates foldPartitions ∧
    (∀ classes, IsTaken classes →
      (foldPartitions classes).Leads (classes.filter (· ≠ .unreachable))) ∧
    (∀ classes, ¬ IsTaken classes → foldPartitions classes = .unknown) ∧
    ∀ flags, Aggregates (classifyIteration · flags) ∧
      ∀ classes, classifyIteration classes flags = flags.class?.getD (foldPartitions classes) :=
  ⟨aggregates_foldPartitions, fun _ => leads_foldPartitions, fun _ => foldPartitions_eq_unknown,
    fun flags => ⟨aggregates_classifyIteration flags, fun classes =>
      classifyIteration_eq classes flags⟩⟩

/-- A failed iteration need not have the classification of any of its partitions, nor is it unknown
if no path is taken. -/
theorem not_leads_classifyIteration_failed :
    let failed : IterationFlags := { isError := true }
    (IsTaken [.eq] ∧
      ¬ (classifyIteration [.eq] failed).Leads ([.eq].filter (· ≠ .unreachable))) ∧
    ¬ IsTaken [] ∧ classifyIteration [] failed ≠ .unknown := by
  refine ⟨⟨⟨.eq, by decide, by decide⟩, by decide⟩, ?_, by decide⟩
  rintro ⟨c, hc, -⟩
  cases hc

end Regression
