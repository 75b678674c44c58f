import Regression.Proofs.Aggregation
import Regression.Proofs.Candidates
import Regression.Proofs.Run.Pieces

/-!
# How a run refines

A run puts back one unit after each iteration but the last one. The unit is shared and was not put
back before, so that there are no more iterations than names of shared units, and one more.

* `Run.Runs.expanding`: what holds of the units put back by any run, failed runs included.
* `Run.Iterates.refining`: how iterations and units belong together in a run that ended well.
-/

namespace Regression

open History

namespace Event

/-- The name of a unit that was put back. -/
def expanded? : Event → Option String
  | .expanded unit (.done (.ok ())) => some unit.name
  | _ => none

/-- The units that were reported as abstracted. -/
def summary? : Event → Option AbstractionSummary
  | .summarized units => some units
  | _ => none

/-- Part of selecting a unit or of putting it back. -/
def isRefining : Event → Bool
  | .summarized _ | .expanded .. => true
  | _ => false

theorem of_not_isRefining {e : Event} (h : e.isRefining = false) :
    e.expanded? = none ∧ e.summary? = none := by
  cases e <;> first | exact ⟨rfl, rfl⟩ | cases h

theorem not_isRefining_of_isWork {e : Event} (h : e.isWork) : e.isRefining = false := by
  cases e <;> first | rfl | cases h

theorem not_isRefining_of_isPrepared {e : Event} (h : e.isPrepared) : e.isRefining = false := by
  cases e <;> first | rfl | cases h

theorem not_isRefining_of_isOutside {e : Event} (h : e.isOutside) : e.isRefining = false := by
  cases e <;> first | rfl | cases h

theorem not_isPrepared_of_isOutside {e : Event} (h : e.isOutside) : e.isPrepared = false := by
  cases e <;> first | rfl | cases h

end Event

namespace History

/-- The names of the units that were put back, in this order. -/
def expansions (h : History) : List String := h.filterMap Event.expanded?

def summaries (h : History) : List AbstractionSummary := h.filterMap Event.summary?

/-- The names of all shared units that were reported. -/
def sharedNames (h : History) : List String :=
  h.summaries.flatMap fun units => units.shared.map (·.name)

/-- No unit is selected or put back. -/
def Unrefining (h : History) : Prop := ∀ e ∈ h, e.isRefining = false

section

variable (h h' : History)

@[simp] theorem expansions_append : (h ++ h').expansions = h.expansions ++ h'.expansions :=
  List.filterMap_append

@[simp] theorem summaries_append : (h ++ h').summaries = h.summaries ++ h'.summaries :=
  List.filterMap_append

@[simp] theorem sharedNames_append : (h ++ h').sharedNames = h.sharedNames ++ h'.sharedNames := by
  rw [sharedNames, summaries_append, List.flatMap_append]
  rfl

/-- There are as many pieces as preparations. -/
theorem length_iterations : h.iterations.length = h.countP Event.isPrepared := by
  induction h with
  | nil => rfl
  | cons e es ih =>
    rw [iterations] at ih ⊢
    cases he : e.isPrepared with
    | true => rw [cut_cons he, List.countP_cons_of_pos he, List.length_cons, ih]
    | false => rw [cut_cons_of_not he, List.countP_cons_of_neg (by simp [he]), ih]

end

namespace Unrefining

variable {h h' : History}

theorem append (hu : h.Unrefining) (hu' : h'.Unrefining) : (h ++ h').Unrefining :=
  List.forall_mem_append.mpr ⟨hu, hu'⟩

theorem expansions_eq (hu : h.Unrefining) : h.expansions = [] := by
  rw [expansions, List.filterMap_eq_nil_iff]
  exact fun e he => (Event.of_not_isRefining (hu e he)).1

theorem summaries_eq (hu : h.Unrefining) : h.summaries = [] := by
  rw [summaries, List.filterMap_eq_nil_iff]
  exact fun e he => (Event.of_not_isRefining (hu e he)).2

theorem of_isOutside (ho : ∀ e ∈ h, e.isOutside) : h.Unrefining :=
  fun e he => Event.not_isRefining_of_isOutside (ho e he)

/-- What comes before or behind does not matter if nothing is put back in it. -/
theorem expansions_between (hu : h.Unrefining) (hu' : h'.Unrefining) (es : History) :
    History.expansions (h ++ (es ++ h')) = es.expansions := by
  rw [expansions_append, expansions_append, hu.expansions_eq, hu'.expansions_eq, List.nil_append,
    List.append_nil]

theorem summaries_between (hu : h.Unrefining) (hu' : h'.Unrefining) (es : History) :
    History.summaries (h ++ (es ++ h')) = es.summaries := by
  rw [summaries_append, summaries_append, hu.summaries_eq, hu'.summaries_eq, List.nil_append,
    List.append_nil]

end Unrefining

theorem countP_isPrepared_of_isOutside {h : History} (ho : ∀ e ∈ h, e.isOutside) :
    h.countP Event.isPrepared = 0 := by
  rw [List.countP_eq_zero]
  exact fun e he => by simp [Event.not_isPrepared_of_isOutside (ho e he)]

end History

/-- A record was not stored, or a file not written. -/
def Failure.IsUnwritten (e : Failure) : Prop :=
  (∃ cause, e = .storage cause) ∨ ∃ cause, e = .ofFile cause

theorem Failure.IsUnwritten.ne_exhausted {e : Failure} (h : e.IsUnwritten) :
    e ≠ .analysis .iterationsExhausted := by
  rcases h with ⟨cause, rfl⟩ | ⟨cause, rfl⟩ <;> rintro ⟨⟩

namespace Run

section

variable {ctx : RunContext} {iteration : UInt32}

/-! ## Within an iteration -/

theorem Concludes.isWork {items : List (Partition × Verdict)} {found : Classified} {es : History}
    {r : Except Failure Classified} (h : Concludes ctx iteration items found es r) :
    (∀ e ∈ es, e.isWork) ∧ ∀ e, r = .error e → e.IsUnwritten := by
  induction h with
  | done => exact ⟨by simp, by rintro _ ⟨⟩⟩
  | failed => exact ⟨by simp [Event.isWork], by rintro _ ⟨⟩; exact .inl ⟨_, rfl⟩⟩
  | next _ ih => exact ⟨List.forall_mem_cons.mpr ⟨rfl, ih.1⟩, ih.2⟩

theorem Classifies.isWork {pieces : List (List Partition)} {found : Classified} {es : History}
    {r : Except Failure Classified} (h : Classifies ctx iteration pieces found es r) :
    (∀ e ∈ es, e.isWork) ∧ ∀ e, r = .error e → e.IsUnwritten := by
  have hdesk {batch : List Partition} {es : History} {verdicts : List Verdict}
      (checks : Oracle.ChecksAll ctx.settings.solver.timeoutMs iteration batch es verdicts) :
      ∀ e ∈ es, e.isWork :=
    fun e he => Event.isWork_of_isChecking (FromDesk.isChecking checks.isFromDesk e he)
  induction h with
  | done => exact ⟨by simp, by rintro _ ⟨⟩⟩
  | expired => exact ⟨by simp [Event.isWork], by rintro _ ⟨⟩⟩
  | abandoned checks | aborted checks =>
    refine ⟨List.forall_mem_cons.mpr ⟨rfl, List.forall_mem_append.mpr ⟨hdesk checks, ?_⟩⟩, ?_⟩
    · simp [Event.isWork]
    · rintro _ ⟨⟩
  | failed checks concludes =>
    refine ⟨List.forall_mem_cons.mpr ⟨rfl, List.forall_mem_append.mpr ⟨hdesk checks, ?_⟩⟩, ?_⟩
    · exact List.forall_mem_cons.mpr ⟨rfl, concludes.isWork.1⟩
    · rintro _ ⟨⟩
      exact concludes.isWork.2 _ rfl
  | next checks concludes _ ih =>
    refine ⟨List.forall_mem_cons.mpr ⟨rfl, List.forall_mem_append.mpr ⟨hdesk checks, ?_⟩⟩, ih.2⟩
    exact List.forall_mem_cons.mpr ⟨rfl, List.forall_mem_append.mpr ⟨concludes.isWork.1, ih.1⟩⟩

theorem Judges.isWork {explored : Exploration} {es : History} {r : Except Failure Classified}
    (h : Judges ctx iteration explored es r) :
    (∀ e ∈ es, e.isWork) ∧ ∀ e, r = .error e → e.IsUnwritten := by
  cases h with
  | expired => exact ⟨by simp, by rintro _ ⟨⟩⟩
  | classified _ classifies => exact classifies.isWork

theorem Explores.unrefining {row : StoreWrite} {result : Except StorageError Unit}
    {es rest : History} {explored : Exploration} (h : Explores ctx iteration es explored)
    (hrest : ∀ e ∈ rest, e.isWork) : History.Unrefining (.wrote row result :: (es ++ rest)) ∧
      (Event.wrote row result :: (es ++ rest)).countP Event.isPrepared ≤ 1 := by
  obtain ⟨e, work, rfl, hprepared, hwork⟩ := h.eq_cons
  have hall : ∀ e ∈ work ++ rest, e.isWork := List.forall_mem_append.mpr ⟨hwork, hrest⟩
  have hnone : (work ++ rest).countP Event.isPrepared = 0 := by
    rw [List.countP_eq_zero]
    exact fun e he => by simp [Event.not_isPrepared_of_isWork (hall e he)]
  refine ⟨List.forall_mem_cons.mpr ⟨rfl, List.forall_mem_cons.mpr ⟨?_, ?_⟩⟩, ?_⟩
  · exact Event.not_isRefining_of_isPrepared hprepared
  · exact fun e he => Event.not_isRefining_of_isWork (hall e he)
  · rw [List.countP_cons_of_neg (by simp [Event.isPrepared]), List.cons_append,
      List.countP_cons_of_pos hprepared, hnone]

/-- An iteration is prepared once at most, nothing is refined in it, and it fails only if something
cannot be written. -/
theorem Analyzes.unrefining {es : History} {r : Except Failure IterationReport}
    (h : Analyzes ctx iteration es r) :
    es.Unrefining ∧ es.countP Event.isPrepared ≤ 1 ∧ ∀ e, r = .error e → e.IsUnwritten := by
  cases h with
  | unstarted =>
    refine ⟨by simp [Unrefining, Event.isRefining], by simp [Event.isPrepared], ?_⟩
    rintro _ ⟨⟩
    exact .inl ⟨_, rfl⟩
  | failed explores judges =>
    refine and_assoc.mp ⟨explores.unrefining judges.isWork.1, ?_⟩
    rintro _ ⟨⟩
    exact judges.isWork.2 _ rfl
  | unstored explores judges =>
    refine and_assoc.mp ⟨explores.unrefining (List.forall_mem_append.mpr
      ⟨judges.isWork.1, by simp [Event.isWork]⟩), ?_⟩
    rintro _ ⟨⟩
    exact .inl ⟨_, rfl⟩
  | unlisted explores judges =>
    refine and_assoc.mp ⟨explores.unrefining (List.forall_mem_append.mpr
      ⟨judges.isWork.1, by simp [Event.isWork]⟩), ?_⟩
    rintro _ ⟨⟩
    exact .inr ⟨_, rfl⟩
  | done explores judges =>
    refine and_assoc.mp ⟨explores.unrefining (List.forall_mem_append.mpr
      ⟨judges.isWork.1, by simp [Event.isWork]⟩), ?_⟩
    rintro _ ⟨⟩

/-! ## Between iterations -/

/-- A unit that is put back is shared and was not put back before. -/
theorem Refines.expansions {refined : List String} {inconclusive : NameSet} {es : History}
    {r : Except StopReason String} (h : Refines ctx refined inconclusive es r) :
    es.countP Event.isPrepared = 0 ∧ es.expansions = r.toOption.toList ∧
      ∀ name, r = .ok name → name ∉ refined ∧ name ∈ es.sharedNames := by
  cases h with
  | exhausted | expired | failed => exact ⟨rfl, rfl, by rintro _ ⟨⟩⟩
  | @expanded units unit select =>
    obtain ⟨hshared, hfresh⟩ := Heuristic.select?_eq_some select
    refine ⟨rfl, rfl, ?_⟩
    rintro _ ⟨⟩
    refine ⟨fun hmem => hfresh (NameSet.mem_ofList.mpr hmem), ?_⟩
    exact List.mem_flatMap.mpr ⟨units, List.mem_cons_self, List.mem_map_of_mem hshared⟩

/-- What holds of the units that are put back by work that knows some units to be put back, and that
can number so many more iterations. -/
structure Expanding {α : Type} (canIterate : Bool) (known : List String) (remaining : Nat)
    (h : History) (r : Except Failure α) : Prop where
  nodup : h.expansions.Nodup
  fresh : ∀ name ∈ h.expansions, name ∉ known
  shared : ∀ name ∈ h.expansions, name ∈ h.sharedNames
  /-- Between two preparations a unit is put back. -/
  prepared : h.countP Event.isPrepared ≤ h.expansions.length + 1
  /-- The numbers are used up by units that were put back. -/
  exhausted : r = .error (.analysis .iterationsExhausted) → remaining ≤ h.expansions.length
  single : canIterate = false → h.countP Event.isPrepared ≤ 1 ∧ h.Unrefining

namespace Expanding

variable {α β : Type} {canIterate : Bool} {known : List String} {remaining : Nat} {h : History}
  {r : Except Failure α}

theorem of_nil (hnone : h.expansions = []) (hprepared : h.countP Event.isPrepared ≤ 1)
    (hr : r = .error (.analysis .iterationsExhausted) → remaining = 0)
    (hsingle : canIterate = false → h.Unrefining) :
    Expanding canIterate known remaining h r where
  nodup := by
    rw [hnone]
    exact List.nodup_nil
  fresh := by simp [hnone]
  shared := by simp [hnone]
  prepared := by omega
  exhausted hexhausted := by
    rw [hr hexhausted]
    exact Nat.zero_le _
  single hfalse := ⟨hprepared, hsingle hfalse⟩

theorem of_unrefining (hu : h.Unrefining) (hprepared : h.countP Event.isPrepared ≤ 1)
    (hr : r = .error (.analysis .iterationsExhausted) → remaining = 0) :
    Expanding canIterate known remaining h r :=
  .of_nil hu.expansions_eq hprepared hr fun _ => hu

/-- Work outside of the iterations puts nothing back. -/
theorem outside {before behind : History} {r' : Except Failure β}
    (expanding : Expanding canIterate known remaining h r) (hbefore : ∀ e ∈ before, e.isOutside)
    (hbehind : ∀ e ∈ behind, e.isOutside)
    (hr : r' = .error (.analysis .iterationsExhausted) →
      r = .error (.analysis .iterationsExhausted)) :
    Expanding canIterate known remaining (before ++ (h ++ behind)) r' := by
  have hu := Unrefining.of_isOutside hbefore
  have hu' := Unrefining.of_isOutside hbehind
  have hexpansions := hu.expansions_between hu' h
  have hprepared : (before ++ (h ++ behind)).countP Event.isPrepared =
      h.countP Event.isPrepared := by
    rw [List.countP_append, List.countP_append, countP_isPrepared_of_isOutside hbefore,
      countP_isPrepared_of_isOutside hbehind, Nat.zero_add, Nat.add_zero]
  constructor
  case nodup =>
    rw [hexpansions]
    exact expanding.nodup
  case fresh =>
    rw [hexpansions]
    exact expanding.fresh
  case shared =>
    rw [hexpansions]
    intro name hname
    simp [expanding.shared name hname]
  case prepared =>
    rw [hexpansions, hprepared]
    exact expanding.prepared
  case exhausted =>
    rw [hexpansions]
    exact fun hexhausted => expanding.exhausted (hr hexhausted)
  case single =>
    rw [hprepared]
    intro hsingle
    obtain ⟨hcount, hnone⟩ := expanding.single hsingle
    exact ⟨hcount, hu.append (hnone.append hu')⟩

end Expanding

/-- The unit behind an iteration is put back before those of the next ones. -/
theorem Analyzes.expansions_eq {iteration : UInt32} {es es' : History}
    {report : IterationReport} {refined : List String} {unit : String}
    (analyzes : Analyzes ctx iteration es (.ok report))
    (refines : Refines ctx refined report.inconclusive es' (.ok unit)) (rest : History) :
    History.expansions (es ++ (es' ++ rest)) = unit :: rest.expansions := by
  rw [expansions_append, expansions_append, analyzes.unrefining.1.expansions_eq,
    refines.expansions.2.1]
  rfl

/-- A unit is put back behind an iteration, and others behind the next ones. -/
theorem Expanding.next {remaining : Nat} {iteration : UInt32} {es es' rest : History}
    {report : IterationReport} {refined : List String} {unit : String} {α : Type}
    {r : Except Failure α}
    (expanding : Expanding true (refined ++ [unit]) remaining rest r)
    (analyzes : Analyzes ctx iteration es (.ok report))
    (refines : Refines ctx refined report.inconclusive es' (.ok unit)) :
    Expanding true refined (remaining + 1) (es ++ (es' ++ rest)) r := by
  have hcons := analyzes.expansions_eq refines rest
  obtain ⟨-, hcount, -⟩ := analyzes.unrefining
  obtain ⟨hprepared, -, hunit⟩ := refines.expansions
  obtain ⟨hfresh, hshared⟩ := hunit unit rfl
  have hknown : ∀ name ∈ rest.expansions, name ∉ refined ∧ name ≠ unit := by
    intro name hname
    have hout : name ∉ refined ++ [unit] := expanding.fresh name hname
    simpa using hout
  constructor
  case nodup =>
    rw [hcons]
    exact List.nodup_cons.mpr ⟨fun hmem => (hknown unit hmem).2 rfl, expanding.nodup⟩
  case fresh =>
    rw [hcons]
    exact List.forall_mem_cons.mpr ⟨hfresh, fun name hname => (hknown name hname).1⟩
  case shared =>
    rw [hcons]
    refine List.forall_mem_cons.mpr ⟨by simp [hshared], fun name hname => ?_⟩
    simp [expanding.shared name hname]
  case prepared =>
    have hrest := expanding.prepared
    rw [hcons, List.countP_append, List.countP_append, hprepared, List.length_cons]
    omega
  case exhausted =>
    rw [hcons, List.length_cons]
    exact fun hexhausted => Nat.succ_le_succ (expanding.exhausted hexhausted)
  case single => rintro ⟨⟩

/-- Units are put back once, one after each iteration but the last one. -/
theorem Iterates.expanding {remaining : Nat} {progress : Progress} {es : History}
    {r : Except Failure (Progress × StopReason)} (h : Iterates ctx remaining progress es r) :
    Expanding ctx.settings.run.tool.canIterate progress.refined remaining es r := by
  induction h with
  | exhausted =>
    exact .of_unrefining (by simp [Unrefining]) (by simp) fun _ => rfl
  | failed analyzes =>
    obtain ⟨hu, hcount, hfailure⟩ := analyzes.unrefining
    refine .of_unrefining hu hcount ?_
    rintro ⟨⟩
    exact absurd rfl (hfailure _ rfl).ne_exhausted
  | timedOut analyzes | stopped analyzes =>
    obtain ⟨hu, hcount, -⟩ := analyzes.unrefining
    exact .of_unrefining hu hcount (by rintro ⟨⟩)
  | @unrefined remaining progress es es' report reason analyzes _ goOn refines =>
    obtain ⟨hu, hcount, -⟩ := analyzes.unrefining
    obtain ⟨hprepared, hexpansions, -⟩ := refines.expansions
    have hnone : History.expansions (es ++ es') = [] := by
      rw [expansions_append, hu.expansions_eq, hexpansions]
      rfl
    refine .of_nil hnone ?_ (by rintro ⟨⟩) ?_
    · rw [List.countP_append, hprepared]
      exact hcount
    · rw [(stopAfter?_eq_none goOn).2]
      rintro ⟨⟩
  | next analyzes _ goOn refines _ ih =>
    rw [(stopAfter?_eq_none goOn).2] at ih ⊢
    exact ih.next analyzes refines

/-! ## Before and behind -/

theorem Opens.isUnwritten {es : History} {e : Failure} (h : Opens ctx es (.error e)) :
    e.IsUnwritten := by
  cases h with
  | undeleted | unstored => exact .inl ⟨_, rfl⟩
  | unreset => exact .inr ⟨_, rfl⟩

theorem PutsAll.isUnwritten {rows : List StoreWrite} {es : History} {e : Failure}
    (h : PutsAll rows es (.error e)) : e.IsUnwritten := by
  generalize hr : Except.error e = r at h
  induction h with
  | done => cases hr
  | failed =>
    cases hr
    exact .inl ⟨_, rfl⟩
  | next _ ih => exact ih hr

theorem Finishes.isUnwritten {run : RunRecord} {progress : Progress} {reason : StopReason}
    {es : History} {e : Failure} (h : Finishes ctx run progress reason es (.error e)) :
    e.IsUnwritten := by
  cases h with
  | unstored => exact .inl ⟨_, rfl⟩
  | failed _ puts => exact puts.isUnwritten

/-- What holds of the units put back by a run, however it ended. -/
theorem Runs.expanding {request : RunRequest} {h : History} {r : Except Failure RunOutcome}
    (runs : Runs ctx request h r) :
    Expanding ctx.settings.run.tool.canIterate [] (UInt32.size - 1) h r := by
  cases runs with
  | unopened opens =>
    refine .of_unrefining (.of_isOutside opens.isOutside) ?_ ?_
    · rw [countP_isPrepared_of_isOutside opens.isOutside]
      exact Nat.zero_le _
    · rintro ⟨⟩
      exact absurd rfl opens.isUnwritten.ne_exhausted
  | missing opens looks finishes =>
    have houtside := List.forall_mem_append.mpr ⟨opens.isOutside,
      List.forall_mem_append.mpr ⟨looks.isOutside, finishes.isOutside⟩⟩
    refine .of_unrefining (.of_isOutside houtside) ?_ ?_
    · rw [countP_isPrepared_of_isOutside houtside]
      exact Nat.zero_le _
    · rintro rfl
      exact absurd rfl finishes.isUnwritten.ne_exhausted
  | @failed es es' es'' run e opens looks iterates =>
    have houtside : ∀ e ∈ es ++ es', e.isOutside :=
      List.forall_mem_append.mpr ⟨opens.isOutside, looks.isOutside⟩
    have hnothing : ∀ e ∈ ([] : History), e.isOutside := by simp
    have hexpanding : Expanding ctx.settings.run.tool.canIterate [] (UInt32.size - 1)
        (es ++ es' ++ (es'' ++ [])) (.error e : Except Failure RunOutcome) :=
      iterates.expanding.outside houtside hnothing (by rintro ⟨⟩; rfl)
    rwa [List.append_nil, List.append_assoc] at hexpanding
  | @iterated es es' es'' es₄ run progress reason r opens looks iterates finishes =>
    have houtside : ∀ e ∈ es ++ es', e.isOutside :=
      List.forall_mem_append.mpr ⟨opens.isOutside, looks.isOutside⟩
    have hexpanding : Expanding ctx.settings.run.tool.canIterate [] (UInt32.size - 1)
        (es ++ es' ++ (es'' ++ es₄)) r := by
      refine iterates.expanding.outside houtside finishes.isOutside ?_
      rintro rfl
      exact absurd rfl finishes.isUnwritten.ne_exhausted
    rwa [List.append_assoc] at hexpanding

/-! ## Runs that end well -/

/-- In these events a unit was put back that had been reported just before as shared. -/
def PutBack (piece : History) (name : String) : Prop :=
  ∃ units unit, [.summarized units, .expanded unit (.done (.ok ()))] <:+: piece ∧
    unit ∈ units.shared ∧ unit.name = name

/-- How the iterations of a run, and their pieces, belong to the units it puts back. -/
structure Refining (before after : Progress) (reason : StopReason) (es tail : History) : Prop where
  refined : after.refined = before.refined ++ es.expansions
  iterations : after.iterations.length = before.iterations.length + es.expansions.length + 1
  ne_nil : (es ++ tail).iterations ≠ []
  putBack : List.Forall₂ PutBack (es ++ tail).iterations.dropLast es.expansions
  nothingLeft : reason = .nothingLeftToRefine → ∃ units, es.summaries.getLast? = some units ∧
    ∀ unit ∈ units.shared, unit.name ∈ after.refined

/-- In the last iteration nothing is put back. -/
theorem Analyzes.refining {progress : Progress} {report : IterationReport} {reason : StopReason}
    {es es' tail : History} (h : Analyzes ctx progress.next es (.ok report)) (ha : es'.Aside)
    (hexpansions : es'.expansions = []) (htail : tail.Aside)
    (hnothing : reason = .nothingLeftToRefine → ∃ units, es'.summaries.getLast? = some units ∧
      ∀ unit ∈ units.shared, unit.name ∈ progress.refined) :
    Refining progress (progress.analyzed report) reason (es ++ es') tail := by
  have hu := h.unrefining.1
  have hnone : History.expansions (es ++ es') = [] := by
    rw [expansions_append, hu.expansions_eq, hexpansions]
    rfl
  have hcut' : (es' ++ tail).cut = (es' ++ tail, []) := (ha.append htail).quiet.cut_eq
  obtain ⟨piece, a, hcut, -⟩ := h.cut_append (es' ++ tail)
    (by rw [hcut']; exact ha.append htail)
  have hiterations : History.iterations (es ++ es' ++ tail) = [piece] := by
    rw [List.append_assoc, iterations, hcut, hcut']
  constructor
  case refined =>
    rw [hnone, List.append_nil]
    rfl
  case iterations =>
    rw [hnone]
    simp [Progress.analyzed]
  case ne_nil =>
    rw [hiterations]
    exact List.cons_ne_nil _ _
  case putBack =>
    rw [hiterations, hnone]
    exact .nil
  case nothingLeft =>
    rw [summaries_append, hu.summaries_eq]
    exact hnothing

/-- In the piece of an iteration that is refined a unit is put back. -/
theorem Analyzes.putBack {iteration : UInt32} {es es' rest : History} {report : IterationReport}
    {refined : List String} {unit : String} (analyzes : Analyzes ctx iteration es (.ok report))
    (refines : Refines ctx refined report.inconclusive es' (.ok unit)) (hrest : rest.cut.1.Aside) :
    ∃ piece, History.iterations (es ++ (es' ++ rest)) = piece :: rest.iterations ∧
      PutBack piece unit := by
  have hcut : (es' ++ rest).cut = (es' ++ rest.cut.1, rest.cut.2) :=
    History.cut_append refines.aside.1.quiet.not_isPrepared
  obtain ⟨piece, a, hcut', hsuffix, -⟩ := analyzes.cut_append (es' ++ rest)
    (by rw [hcut]; exact refines.aside.1.append hrest)
  refine ⟨piece, by rw [iterations, hcut', hcut]; rfl, ?_⟩
  rw [hcut] at hsuffix
  cases refines with
  | @expanded units unit select =>
    refine ⟨units, unit, ?_, (Heuristic.select?_eq_some select).1, rfl⟩
    exact (List.prefix_append _ _).isInfix.trans hsuffix.isInfix

/-- A unit is put back behind an iteration, and others behind the next ones. -/
theorem Refining.next {progress after : Progress} {reason : StopReason} {es es' rest tail : History}
    {report : IterationReport} {unit : String}
    (refining : Refining ((progress.analyzed report).expanded unit) after reason rest tail)
    (analyzes : Analyzes ctx progress.next es (.ok report))
    (refines : Refines ctx progress.refined report.inconclusive es' (.ok unit))
    (hrest : (rest ++ tail).cut.1.Aside) :
    Refining progress after reason (es ++ (es' ++ rest)) tail := by
  have hcons := analyzes.expansions_eq refines rest
  obtain ⟨piece, hiterations, hputBack⟩ := analyzes.putBack refines hrest
  have hpieces : History.iterations (es ++ (es' ++ rest) ++ tail) =
      piece :: (rest ++ tail).iterations := by
    rw [List.append_assoc, List.append_assoc, hiterations]
  constructor
  case refined =>
    rw [refining.refined, hcons]
    simp [Progress.expanded, Progress.analyzed]
  case iterations =>
    rw [refining.iterations, hcons]
    simp [Progress.expanded, Progress.analyzed]
    omega
  case ne_nil =>
    rw [hpieces]
    exact List.cons_ne_nil _ _
  case putBack =>
    rw [hpieces, List.dropLast_cons_of_ne_nil refining.ne_nil, hcons]
    exact .cons hputBack refining.putBack
  case nothingLeft =>
    intro hreason
    obtain ⟨units, hlast, hall⟩ := refining.nothingLeft hreason
    refine ⟨units, ?_, hall⟩
    rw [summaries_append, summaries_append, List.getLast?_append, List.getLast?_append, hlast]
    rfl

/-- After each iteration but the last one one unit is put back. -/
theorem Iterates.refining {remaining : Nat} {progress progress' : Progress} {reason : StopReason}
    {es tail : History} (h : Iterates ctx remaining progress es (.ok (progress', reason)))
    (htail : tail.Aside) : Refining progress progress' reason es tail := by
  generalize hr : Except.ok (progress', reason) = r at h
  have hnone : Aside [] := by simp [Aside]
  induction h with
  | exhausted | failed => cases hr
  | @timedOut remaining progress es report analyzes =>
    cases hr
    have hrefining : Refining progress (progress.analyzed report) .timedOut (es ++ []) tail :=
      analyzes.refining hnone rfl htail (by rintro ⟨⟩)
    rwa [List.append_nil] at hrefining
  | @stopped remaining progress es report reason analyzes _ stop =>
    cases hr
    have hstop : reason ≠ .nothingLeftToRefine := by
      rcases stopAfter?_eq_some stop with rfl | rfl <;> rintro ⟨⟩
    have hrefining := analyzes.refining hnone rfl htail fun hreason => absurd hreason hstop
    rwa [List.append_nil] at hrefining
  | unrefined analyzes _ _ refines =>
    cases hr
    refine analyzes.refining refines.aside.1 refines.expansions.2.1 htail ?_
    rintro rfl
    cases refines with
    | @exhausted units select =>
      refine ⟨units, rfl, fun unit hunit => ?_⟩
      exact NameSet.mem_ofList.mp (Heuristic.select?_eq_none select unit hunit)
  | next analyzes _ _ refines iterates ih =>
    have hrest := ih hr
    subst hr
    obtain ⟨accounts, haccounts, -⟩ := iterates.accounts htail
    exact hrest.next analyzes refines haccounts.aside

end

end Run

end Regression
