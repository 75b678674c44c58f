import Mathlib.Data.List.Lex
import Regression.Proofs.Candidates

/-!
# The order of candidates

The candidates are the units that a heuristic admits, in ascending order of its key; units with
equal keys stay in the order of their declarations. There is only one such list.

* `StablySorts.unique`: a stable sort is determined by what is sorted.
* `Heuristic.candidates_eq_iff`: the candidates are the stable sort of the admitted units.
* `Heuristic.select?_eq_none_iff`: nothing is selected exactly if all shared units are refined.
-/

namespace Regression

/-! ## Stable sorts -/

/-- The sorted items are the same ones, as often; their keys ascend, and items with equal keys are
in the same order as before. -/
structure StablySorts {α : Type} (key : α → List Nat) (items sorted : List α) : Prop where
  perm : sorted.Perm items
  ascending : sorted.Pairwise fun a b => key a ≤ key b
  stable : ∀ k, sorted.filter (key · = k) = items.filter (key · = k)

section

variable {α : Type} {key : α → List Nat}

theorem stablySorts_mergeSort {le : α → α → Bool} (hle : ∀ a b, le a b ↔ key a ≤ key b)
    (items : List α) : StablySorts key items (items.mergeSort le) := by
  have htrans (a b c : α) (hab : le a b) (hbc : le b c) : le a c :=
    (hle a c).mpr (le_trans ((hle a b).mp hab) ((hle b c).mp hbc))
  have htotal (a b : α) : le a b || le b a := by
    rw [Bool.or_eq_true, hle, hle]
    exact le_total (key a) (key b)
  have hperm := List.mergeSort_perm items le
  refine ⟨hperm, ?_, fun k => ?_⟩
  · exact (List.pairwise_mergeSort htrans htotal items).imp fun h => (hle _ _).mp h
  -- Items with one key are sorted already, and so they are a sublist of the sorted ones.
  have hties : (items.filter (key · = k)).Pairwise fun a b => le a b := by
    refine List.pairwise_of_forall_mem_list fun a ha b hb => (hle a b).mpr ?_
    have ha : key a = k := of_decide_eq_true (List.mem_filter.mp ha).2
    have hb : key b = k := of_decide_eq_true (List.mem_filter.mp hb).2
    exact (ha.trans hb.symm).le
  have hsublist : (items.filter (key · = k)).Sublist (items.mergeSort le) :=
    List.sublist_mergeSort htrans htotal hties List.filter_sublist
  have hfilter : (items.filter (key · = k)).Sublist ((items.mergeSort le).filter (key · = k)) := by
    have hself := hsublist.filter (key · = k)
    simpa only [List.filter_filter, Bool.and_self] using hself
  exact (hfilter.eq_of_length (hperm.filter (key · = k)).length_eq.symm).symm

/-- The first items of two stable sorts have the same key. -/
theorem StablySorts.key_head_le {items l l' : List α} {a b : α}
    (h : StablySorts key items (a :: l)) (h' : StablySorts key items (b :: l')) :
    key a ≤ key b := by
  have hb : b ∈ a :: l := h.perm.symm.subset (h'.perm.subset List.mem_cons_self)
  rcases List.mem_cons.mp hb with rfl | hb
  · exact le_refl _
  · exact (List.pairwise_cons.mp h.ascending).1 b hb

/-- A stable sort without its first item sorts the others. -/
theorem StablySorts.tail {items l : List α} {a : α} (h : StablySorts key items (a :: l)) :
    StablySorts key l l :=
  ⟨.refl l, (List.pairwise_cons.mp h.ascending).2, fun _ => rfl⟩

/-- There is one stable sort. -/
theorem StablySorts.unique {items l l' : List α} (h : StablySorts key items l)
    (h' : StablySorts key items l') : l = l' := by
  induction l generalizing items l' with
  | nil =>
    have hnil : l'.Perm [] := h'.perm.trans h.perm.symm
    exact hnil.eq_nil.symm
  | cons a l ih =>
    cases l' with
    | nil =>
      have hnil : (a :: l).Perm [] := h.perm.trans h'.perm.symm
      exact absurd hnil.eq_nil (List.cons_ne_nil a l)
    | cons b l' =>
      have hkey : key a = key b := le_antisymm (h.key_head_le h') (h'.key_head_le h)
      have hfilters (k : List Nat) : (a :: l).filter (key · = k) = (b :: l').filter (key · = k) :=
        (h.stable k).trans (h'.stable k).symm
      have hfirst := hfilters (key a)
      rw [List.filter_cons_of_pos (by simp), List.filter_cons_of_pos (by simp [hkey])] at hfirst
      obtain ⟨rfl, hrest⟩ := List.cons.inj hfirst
      have htail : StablySorts key l l' := by
        refine ⟨?_, h'.tail.ascending, fun k => ?_⟩
        · exact (List.perm_cons a).mp (h'.perm.trans h.perm.symm)
        · by_cases hk : key a = k
          · rw [← hk]
            exact hrest.symm
          · have hall := hfilters k
            rw [List.filter_cons_of_neg (by simpa using hk),
              List.filter_cons_of_neg (by simpa using hk)] at hall
            exact hall.symm
      rw [ih h.tail htail]

end

/-! ## The order of a heuristic -/

namespace AbstractedUnit

/-- A unit of both versions that has not been refined. -/
def IsOpen (u : AbstractedUnit) (refined : NameSet) : Prop :=
  u.inV1 ∧ u.inV2 ∧ u.name ∉ refined

instance (u : AbstractedUnit) (refined : NameSet) : Decidable (u.IsOpen refined) :=
  inferInstanceAs (Decidable (_ ∧ _ ∧ _))

/-- The call sites of a unit are those of both versions; their number does not wrap around. -/
theorem callSites_eq (u : AbstractedUnit) :
    u.callSites = min (u.callSitesV1.toNat + u.callSitesV2.toNat) (UInt32.size - 1) :=
  rfl

end AbstractedUnit

namespace Heuristic

variable {heuristic : Heuristic} {units : AbstractionSummary} {refined inconclusive : NameSet}

/-- What a heuristic goes by, the most important first; less is better. -/
def key : Heuristic → AbstractedUnit → List Nat
  | .h123, u => [if u.callSitesV1 = u.callSitesV2 then 1 else 0, u.hasLoop.toNat,
      min (u.callSitesV1.toNat + u.callSitesV2.toNat) (UInt32.size - 1)]
  | .h3, u => [u.hasLoop.toNat, min (u.callSitesV1.toNat + u.callSitesV2.toNat) (UInt32.size - 1)]
  | .r, _ => []

/-- A heuristic admits all open units; H123 admits those that occur in inconclusive partitions only,
unless none does. -/
def Admits (heuristic : Heuristic) (units : AbstractionSummary) (refined inconclusive : NameSet)
    (u : AbstractedUnit) : Prop :=
  u.IsOpen refined ∧ (heuristic = .h123 → u.name ∈ inconclusive ∨
    ∀ v ∈ units, v.IsOpen refined → v.name ∉ inconclusive)

instance : DecidablePred (heuristic.Admits units refined inconclusive) :=
  fun _ => inferInstanceAs (Decidable (_ ∧ _))

theorem cons_le_cons_iff {m n : Nat} {k l : List Nat} :
    m :: k ≤ n :: l ↔ m < n ∨ m = n ∧ k ≤ l := by
  rw [le_iff_lt_or_eq, List.cons_lt_cons_iff, List.cons.injEq, or_assoc, ← and_or_left,
    ← le_iff_lt_or_eq]

theorem toNat_cons_le_iff {a b : Bool} {k l : List Nat} :
    a.toNat :: k ≤ b.toNat :: l ↔ if a ≠ b then b = true else k ≤ l := by
  rw [cons_le_cons_iff]
  cases a <;> cases b <;> simp

theorem singleton_le_iff {m n : Nat} : [m] ≤ [n] ↔ m ≤ n := by
  rw [cons_le_cons_iff, Nat.le_iff_lt_or_eq]
  simp

/-- A heuristic compares units by their keys. -/
theorem le_iff (u v : AbstractedUnit) :
    heuristic.le u v ↔ heuristic.key u ≤ heuristic.key v := by
  have hdiverges (u : AbstractedUnit) :
      (if u.callSitesV1 = u.callSitesV2 then 1 else 0) = (!u.callCountsDiffer).toNat := by
    by_cases hsame : u.callSitesV1 = u.callSitesV2 <;> simp [AbstractedUnit.callCountsDiffer, hsame]
  cases heuristic with
  | h123 =>
    simp only [key, ← AbstractedUnit.callSites_eq, hdiverges, toNat_cons_le_iff, singleton_le_iff,
      le, usesDivergence, usesShape]
    by_cases hdiffer : u.callCountsDiffer = v.callCountsDiffer <;> simp [hdiffer]
  | h3 =>
    simp only [key, ← AbstractedUnit.callSites_eq, toNat_cons_le_iff, singleton_le_iff, le,
      usesDivergence, usesShape]
    simp
  | r => simp [key, le, usesDivergence, usesShape]

theorem filter_shared_eq :
    units.shared.filter (·.name ∉ refined) = units.filter (·.IsOpen refined) := by
  rw [AbstractionSummary.shared, List.filter_filter]
  refine List.filter_congr fun u _ => ?_
  have hopen : u.IsOpen refined ↔ u.isShared ∧ u.name ∉ refined := by
    rw [AbstractedUnit.IsOpen, AbstractedUnit.isShared, Bool.and_eq_true, and_assoc]
  rw [Bool.eq_iff_iff, Bool.and_eq_true, decide_eq_true_eq, decide_eq_true_eq, hopen, and_comm]

/-- If some open unit occurs in inconclusive partitions, H123 keeps those that do. -/
theorem admits_iff_of_occurring {v : AbstractedUnit} (hv : v ∈ units) (hopen : v.IsOpen refined)
    (hoccurs : v.name ∈ inconclusive) {u : AbstractedUnit} :
    Admits .h123 units refined inconclusive u ↔ u.IsOpen refined ∧ u.name ∈ inconclusive := by
  refine and_congr_right fun _ => ⟨fun h => ?_, fun h _ => .inl h⟩
  exact (h rfl).resolve_right fun hnone => hnone v hv hopen hoccurs

/-- The units that a heuristic keeps are those that it admits. -/
theorem eligible_eq :
    heuristic.eligible units refined inconclusive =
      units.filter (heuristic.Admits units refined inconclusive) := by
  have hall (h : ∀ u ∈ units, u.IsOpen refined → heuristic.Admits units refined inconclusive u) :
      units.filter (·.IsOpen refined) =
        units.filter (heuristic.Admits units refined inconclusive) :=
    List.filter_congr fun u hu => decide_eq_decide.mpr ⟨h u hu, And.left⟩
  cases heuristic with
  | h123 =>
    simp only [eligible, usesOccurrence, filter_shared_eq, Bool.true_and]
    by_cases hnone : (units.filter (·.IsOpen refined)).filter (·.name ∈ inconclusive) = []
    · rw [hnone]
      refine hall fun u _ hopen => ⟨hopen, fun _ => .inr fun v hv hv' => ?_⟩
      have hv := List.filter_eq_nil_iff.mp hnone v (List.mem_filter.mpr ⟨hv, decide_eq_true hv'⟩)
      exact fun hmem => hv (decide_eq_true hmem)
    · obtain ⟨v, hv⟩ := List.exists_mem_of_ne_nil _ hnone
      obtain ⟨hv, hoccurs⟩ := List.mem_filter.mp hv
      obtain ⟨hv, hopen⟩ := List.mem_filter.mp hv
      have hoccurs := of_decide_eq_true hoccurs
      have hopen := of_decide_eq_true hopen
      rw [if_pos (by simpa using hnone), List.filter_filter]
      refine List.filter_congr fun u _ => ?_
      simp [admits_iff_of_occurring hv hopen hoccurs, Bool.and_comm]
  | h3 | r =>
    simp only [eligible, usesOccurrence, filter_shared_eq, Bool.false_and]
    exact hall fun u _ hopen => ⟨hopen, by rintro ⟨⟩⟩

/-- The candidates are the stable sort of the admitted units. -/
theorem candidates_eq_iff {l : List AbstractedUnit} :
    heuristic.candidates units refined inconclusive = l ↔
      StablySorts heuristic.key (units.filter (heuristic.Admits units refined inconclusive)) l := by
  have hsorts := stablySorts_mergeSort heuristic.le_iff
    (heuristic.eligible units refined inconclusive)
  rw [candidates, ← eligible_eq]
  exact ⟨fun h => h ▸ hsorts, hsorts.unique⟩

/-- No unit occurs in inconclusive partitions, so that all open ones are candidates: first the one
that the versions call differently often, then the loop-free ones. -/
example :
    (h123.candidates
      [{ name := "a", hasLoop := true, callSitesV1 := 1, callSitesV2 := 1 },
        { name := "b", callSitesV1 := 3, callSitesV2 := 3 },
        { name := "c", callSitesV1 := 1, callSitesV2 := 1 },
        { name := "d", hasLoop := true, callSitesV1 := 1, callSitesV2 := 2 },
        { name := "e", inV2 := false }] .empty (.ofList ["z"])).map (·.name) =
      ["d", "c", "b", "a"] := by
  cbv

/-- Nothing is selected exactly if nothing is open. -/
theorem select?_eq_none_iff :
    heuristic.select? units refined inconclusive = none ↔
      ∀ u ∈ units, u.inV1 → u.inV2 → u.name ∈ refined := by
  constructor
  · intro h u hu hv1 hv2
    refine select?_eq_none h u (List.mem_filter.mpr ⟨hu, ?_⟩)
    rw [AbstractedUnit.isShared, hv1, hv2]
    rfl
  · intro h
    cases hselect : heuristic.select? units refined inconclusive with
    | none => rfl
    | some u =>
      obtain ⟨hshared, hfresh⟩ := select?_eq_some hselect
      obtain ⟨hu, hversions⟩ := List.mem_filter.mp hshared
      rw [AbstractedUnit.isShared, Bool.and_eq_true] at hversions
      exact absurd (h u hu hversions.1 hversions.2) hfresh

theorem select?_eq_some_iff {u : AbstractedUnit} :
    heuristic.select? units refined inconclusive = some u ↔
      ∃ rest, heuristic.candidates units refined inconclusive = u :: rest :=
  List.head?_eq_some_iff

end Heuristic

end Regression
