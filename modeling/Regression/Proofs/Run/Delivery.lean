import Regression.Proofs.Run.Segments

/-!
# How exploring ends

The events of exploring tell how it ended: whether preparing or delivering failed, whether the
watchdog was seen to have expired, and which partitions there are to check.

* `Run.Explores.failed_eq`, `Run.Explores.expired_eq`: the events decide how exploring ended.
* `Run.Explores.delivered_eq`, `Run.Explores.drained_mem`: nothing is left out if it ended well.
* `Run.Explores.accepted_eq`, `Run.Explores.writes_eq`: what is checked was accepted and stored.
-/

namespace Regression

open History

/-! ## Delivery -/

def Ending.isFailed : Ending → Bool
  | .failed _ => true
  | _ => false

def Ending.isExpired : Ending → Bool
  | .expired => true
  | _ => false

theorem Exploration.error_upTo (partitions : List Partition) (ending : Ending)
    (timings : List (String × Duration)) :
    (upTo partitions ending timings).error.isSome = ending.isFailed := by
  cases ending <;> rfl

theorem Exploration.timedOut_upTo (partitions : List Partition) (ending : Ending)
    (timings : List (String × Duration)) :
    (upTo partitions ending timings).timedOut = ending.isExpired := by
  cases ending <;> rfl

theorem Exploration.partitions_upTo (partitions : List Partition) (ending : Ending)
    (timings : List (String × Duration)) :
    (upTo partitions ending timings).partitions = partitions := by
  cases ending <;> rfl

namespace Run

section

variable {ctx : RunContext} {iteration : UInt32}

namespace Pulls

variable {last : Option UInt32} {es : History} {r : List Partition × Ending}

theorem isWork (h : Pulls ctx iteration last es r) : ∀ e ∈ es, e.isWork := by
  induction h with
  | expired | failed | drained | outOfOrder | unstored => simp [Event.isWork]
  | next _ _ ih => simpa [Event.isWork] using ih

theorem prefix_delivered (h : Pulls ctx iteration last es r) : r.1 <+: es.delivered := by
  induction h with
  | expired | failed | drained | outOfOrder | unstored => exact List.nil_prefix
  | next _ _ ih => exact List.cons_prefix_cons.mpr ⟨rfl, ih⟩

/-- Nothing was delivered that is not among the partitions, unless delivery failed. -/
theorem delivered_eq (h : Pulls ctx iteration last es r) (hr : r.2.isFailed = false) :
    es.delivered = r.1 := by
  induction h with
  | expired | drained => rfl
  | failed | outOfOrder | unstored => cases hr
  | next _ _ ih => exact congrArg (_ :: ·) (ih hr)

theorem answered_eq (h : Pulls ctx iteration last es r) : es.answered = [] := by
  induction h with
  | expired | failed | drained | outOfOrder | unstored => rfl
  | next _ _ ih => exact ih

theorem unpolled (h : Pulls ctx iteration last es r) : es.Unpolled := by
  induction h with
  | expired | failed | drained | outOfOrder | unstored => simp [Unpolled, Event.isPolled]
  | next _ _ ih => simpa [Unpolled, Event.isPolled] using ih

/-- Every partition that was delivered in order was written, unless the store refused it. -/
theorem writes_eq (h : Pulls ctx iteration last es r) :
    es.writes = r.1.map fun p => indexRow ctx iteration p.index := by
  induction h with
  | expired | failed | drained | outOfOrder | unstored => rfl
  | next _ _ ih => exact congrArg (_ :: ·) ih

/-- What the store refused follows the last one. -/
theorem follows_refused (h : Pulls ctx iteration last es r) {index : UInt32}
    (hindex : index ∈ es.refused) : follows index last := by
  induction h with
  | expired | failed | drained | outOfOrder => simp [refused, Event.refused?] at hindex
  | @unstored last p e order =>
    have hrefused : History.refused [.pulled (.done (.ok (some p))),
        .wrote (indexRow ctx iteration p.index) (.error e)] = [p.index] := rfl
    rw [hrefused, List.mem_singleton] at hindex
    rw [hindex]
    exact order
  | @next last p es rest ending order _ ih =>
    have hfollows : p.index < index := by simpa [follows] using ih hindex
    cases last with
    | none => rfl
    | some last =>
      have hlast : last < p.index := by simpa [follows] using order
      simpa [follows] using UInt32.lt_trans hlast hfollows

/-- The partitions are those that were accepted. -/
theorem accepted_eq (h : Pulls ctx iteration last es r) :
    (following last es.delivered).filter (·.index ∉ es.refused) = r.1 := by
  induction h with
  | expired | failed | drained => rfl
  | outOfOrder order => simp [delivered, Event.delivered?, following, order]
  | @unstored last p e order =>
    have hdelivered : History.delivered [.pulled (.done (.ok (some p))),
        .wrote (indexRow ctx iteration p.index) (.error e)] = [p] := rfl
    have hrefused : History.refused [.pulled (.done (.ok (some p))),
        .wrote (indexRow ctx iteration p.index) (.error e)] = [p.index] := rfl
    rw [hdelivered, hrefused, following, if_pos order]
    simp [following]
  | @next last p es rest ending order pulls ih =>
    have hdelivered : History.delivered (.pulled (.done (.ok (some p))) ::
        .wrote (indexRow ctx iteration p.index) (.ok ()) :: es) = p :: es.delivered := rfl
    have hrefused : History.refused (.pulled (.done (.ok (some p))) ::
        .wrote (indexRow ctx iteration p.index) (.ok ()) :: es) = es.refused := rfl
    have htaken : p.index ∉ es.refused := by
      intro hmem
      have hlt : p.index < p.index := by simpa [follows] using pulls.follows_refused hmem
      exact UInt32.lt_irrefl _ hlt
    rw [hdelivered, hrefused, following, if_pos order,
      List.filter_cons_of_pos (by simpa using htaken), ih]

theorem expired_eq (h : Pulls ctx iteration last es r) : es.expired = r.2.isExpired := by
  induction h with
  | expired | failed | drained | outOfOrder | unstored => rfl
  | next _ _ ih => exact ih

theorem drained_mem (h : Pulls ctx iteration last es r) (hf : r.2.isFailed = false)
    (he : r.2.isExpired = false) : .pulled (.done (.ok none)) ∈ es := by
  induction h with
  | drained => exact List.mem_singleton_self _
  | expired => cases he
  | failed | outOfOrder | unstored => cases hf
  | next _ _ ih => exact List.mem_cons_of_mem _ (List.mem_cons_of_mem _ (ih hf he))

/-- Delivery failed if there is a failure among the events, or if the indices do not grow from the
last one on. -/
theorem failed_eq (h : Pulls ctx iteration last es r) :
    (es.any Event.isFailure ||
      !decide ((last.toList ++ es.delivered.map (·.index)).IsChain (· < ·))) = r.2.isFailed := by
  induction h with
  | @expired last | @drained last => cases last <;> rfl
  | failed => rfl
  | @outOfOrder last p order =>
    cases last with
    | none => cases order
    | some last =>
      have horder : ¬ last < p.index := by simpa [follows] using order
      simp [delivered, Event.delivered?, Event.isFailure, Ending.isFailed, horder]
  | unstored => rfl
  | @next last p es rest ending order _ ih =>
    have hdelivered : History.delivered (.pulled (.done (.ok (some p))) ::
        .wrote (indexRow ctx iteration p.index) (.ok ()) :: es) = p :: es.delivered := rfl
    rw [← ih, hdelivered]
    cases last with
    | none => rfl
    | some last =>
      have horder : last < p.index := by simpa [follows] using order
      have hchain : List.IsChain (· < ·) (last :: p.index :: es.delivered.map (·.index)) ↔
          List.IsChain (· < ·) (p.index :: es.delivered.map (·.index)) :=
        List.isChain_cons_cons.trans (and_iff_right horder)
      exact congrArg (es.any Event.isFailure || !·) (decide_eq_decide.mpr hchain)

end Pulls

namespace Delivers

variable {es : History} {r : List Partition × Ending}

theorem isWork (h : Delivers ctx iteration es r) : ∀ e ∈ es, e.isWork := by
  cases h with
  | expired | failed => simp [Event.isWork]
  | pulled pulls => simpa [Event.isWork] using pulls.isWork

theorem prefix_delivered (h : Delivers ctx iteration es r) : r.1 <+: es.delivered := by
  cases h with
  | expired | failed => exact List.nil_prefix
  | pulled pulls => exact pulls.prefix_delivered

theorem delivered_eq (h : Delivers ctx iteration es r) (hr : r.2.isFailed = false) :
    es.delivered = r.1 := by
  cases h with
  | expired => rfl
  | failed => cases hr
  | pulled pulls => exact pulls.delivered_eq hr

theorem answered_eq (h : Delivers ctx iteration es r) : es.answered = [] := by
  cases h with
  | expired | failed => rfl
  | pulled pulls => exact pulls.answered_eq

theorem unpolled (h : Delivers ctx iteration es r) : es.Unpolled := by
  cases h with
  | expired | failed => simp [Unpolled, Event.isPolled]
  | pulled pulls => exact List.forall_mem_cons.mpr ⟨rfl, pulls.unpolled⟩

theorem writes_eq (h : Delivers ctx iteration es r) :
    es.writes = r.1.map fun p => indexRow ctx iteration p.index := by
  cases h with
  | expired | failed => rfl
  | pulled pulls => exact pulls.writes_eq

theorem accepted_eq (h : Delivers ctx iteration es r) : es.accepted = r.1 := by
  cases h with
  | expired | failed => rfl
  | pulled pulls => exact pulls.accepted_eq

theorem expired_eq (h : Delivers ctx iteration es r) : es.expired = r.2.isExpired := by
  cases h with
  | expired | failed => rfl
  | pulled pulls => exact pulls.expired_eq

theorem drained_mem (h : Delivers ctx iteration es r) (hf : r.2.isFailed = false)
    (he : r.2.isExpired = false) : .pulled (.done (.ok none)) ∈ es := by
  cases h with
  | expired => cases he
  | failed => cases hf
  | pulled pulls => exact List.mem_cons_of_mem _ (pulls.drained_mem hf he)

theorem failed_eq (h : Delivers ctx iteration es r) : es.failed = r.2.isFailed := by
  cases h with
  | expired | failed => rfl
  | pulled pulls => exact pulls.failed_eq

end Delivers

namespace Explores

variable {es : History} {explored : Exploration}

/-- Preparing comes first. -/
theorem eq_cons (h : Explores ctx iteration es explored) :
    ∃ e rest, es = e :: rest ∧ e.isPrepared = true ∧ ∀ e ∈ rest, e.isWork := by
  cases h with
  | expired | failed => exact ⟨_, _, rfl, rfl, by simp⟩
  | delivered delivers => exact ⟨_, _, rfl, rfl, delivers.isWork⟩

/-- The partitions that are checked were delivered. -/
theorem prefix_delivered (h : Explores ctx iteration es explored) :
    explored.partitions <+: es.delivered := by
  cases h with
  | expired | failed => exact List.nil_prefix
  | delivered delivers =>
    rw [Exploration.partitions_upTo]
    exact delivers.prefix_delivered

/-- All partitions that were delivered are checked, unless preparing or exploring failed. -/
theorem delivered_eq (h : Explores ctx iteration es explored) (hf : explored.error = none) :
    es.delivered = explored.partitions := by
  cases h with
  | expired => rfl
  | failed => cases hf
  | @delivered _ partitions ending timings delivers =>
    have hending := Exploration.error_upTo partitions ending timings
    rw [hf] at hending
    rw [Exploration.partitions_upTo]
    exact delivers.delivered_eq hending.symm

theorem answered_eq (h : Explores ctx iteration es explored) : es.answered = [] := by
  cases h with
  | expired | failed => rfl
  | delivered delivers => exact delivers.answered_eq

theorem unpolled (h : Explores ctx iteration es explored) : es.Unpolled := by
  cases h with
  | expired | failed => simp [Unpolled, Event.isPolled]
  | delivered delivers => exact List.forall_mem_cons.mpr ⟨rfl, delivers.unpolled⟩

theorem writes_eq (h : Explores ctx iteration es explored) :
    es.writes = explored.partitions.map fun p => indexRow ctx iteration p.index := by
  cases h with
  | expired | failed => rfl
  | delivered delivers =>
    rw [Exploration.partitions_upTo]
    exact delivers.writes_eq

/-- The partitions that are checked are those that were accepted. -/
theorem accepted_eq (h : Explores ctx iteration es explored) :
    es.accepted = explored.partitions := by
  cases h with
  | expired | failed => rfl
  | delivered delivers =>
    rw [Exploration.partitions_upTo]
    exact delivers.accepted_eq

theorem expired_eq (h : Explores ctx iteration es explored) : es.expired = explored.timedOut := by
  cases h with
  | expired | failed => rfl
  | delivered delivers =>
    rw [Exploration.timedOut_upTo]
    exact delivers.expired_eq

theorem failed_eq (h : Explores ctx iteration es explored) :
    es.failed = explored.error.isSome := by
  cases h with
  | expired | failed => rfl
  | delivered delivers =>
    rw [Exploration.error_upTo]
    exact delivers.failed_eq

/-- The source was drained, unless something failed or expired. -/
theorem drained_mem (h : Explores ctx iteration es explored) (hf : explored.error = none)
    (he : explored.timedOut = false) : .pulled (.done (.ok none)) ∈ es := by
  cases h with
  | expired => cases he
  | failed => cases hf
  | @delivered _ partitions ending timings delivers =>
    have hending := Exploration.error_upTo partitions ending timings
    rw [hf] at hending
    rw [Exploration.timedOut_upTo] at he
    exact List.mem_cons_of_mem _ (delivers.drained_mem hending.symm he)

end Explores

end

end Run

end Regression
