import Regression.Proofs.Expr.Nodes
import Regression.Proofs.Run.Stored
import Regression.Proofs.Run.Termination
import Regression.Proofs.Selection

/-!
# What a run selects from

After an iteration a run looks for a unit to put back. It goes by the units it has put back so far
and by the names of the uninterpreted functions on those paths that the iteration left undecided.

* `Partition.mem_uifNames_iff`: the names are those of the functions that are applied.
* `Run.Analyzes.inconclusive_iff`: the names that an iteration hands on.
* `candidates_in_order`: how candidates are ordered, and what they are chosen by in a run.
-/

namespace Regression

open History

/-! ## Names of functions -/

/-- An uninterpreted function of this name is applied on the path. -/
def Partition.Applies (p : Partition) (name : String) : Prop :=
  ∃ e ∈ p.exprs, ∃ sort args, (Expr.uif name sort args).Occurs e

theorem Expr.mem_uifNames_iff {e : Expr} {name : String} :
    name ∈ e.uifNames ↔ ∃ sort args, (Expr.uif name sort args).Occurs e := by
  rw [uifNames, NameSet.mem_ofList, List.mem_filterMap]
  constructor
  · rintro ⟨x, hx, hname⟩
    cases x with
    | uif f sort args =>
      cases hname
      exact ⟨sort, args, mem_nodes.mp hx⟩
    | _ => cases hname
  · rintro ⟨sort, args, h⟩
    exact ⟨_, mem_nodes.mpr h, rfl⟩

theorem Outcome.mem_uifNames_iff {o : Outcome} {name : String} :
    name ∈ o.uifNames ↔
      ∃ e ∈ o.expr?.toList, ∃ sort args, (Expr.uif name sort args).Occurs e := by
  cases o with
  | concrete v =>
    have hnone : name ∉ NameSet.empty := List.not_mem_nil
    have hconst : name ∉ (Expr.const v).uifNames := by
      simp [Expr.uifNames, NameSet.mem_ofList, Expr.nodes, Expr.uifName?]
    simp [uifNames, expr?, ← Expr.mem_uifNames_iff, hnone, hconst]
  | symbolic e => simp [uifNames, expr?, Expr.mem_uifNames_iff]
  | raised error =>
    have hnone : name ∉ NameSet.empty := List.not_mem_nil
    simp [uifNames, expr?, hnone]

theorem Partition.mem_uifNames_iff {p : Partition} {name : String} :
    name ∈ p.uifNames ↔ p.Applies name := by
  rw [uifNames, NameSet.mem_union, NameSet.mem_union, or_assoc, Expr.mem_uifNames_iff,
    Outcome.mem_uifNames_iff, Outcome.mem_uifNames_iff]
  simp only [Applies, exprs, List.exists_mem_cons_iff, List.mem_append, or_and_right, exists_or]

/-! ## Undecided partitions -/

theorem Classification.isConclusive_eq_false_iff {c : Classification} :
    c.isConclusive = false ↔ c ≠ .eq ∧ c ≠ .neq ∧ c ≠ .unreachable := by
  cases c <;> simp [isConclusive]

namespace History

variable {h h' : History}

/-- A partition was accepted, and classified as something else than equivalent, different or
unreachable. -/
def Undecided (h : History) (p : Partition) : Prop :=
  p ∈ h.accepted ∧ ∃ row c, .partition row ∈ h.writes ∧ row.partition = p.index ∧
    row.result = some c ∧ c ≠ .eq ∧ c ≠ .neq ∧ c ≠ .unreachable

/-- The last piece of a history is that of what comes last, if that has any. -/
theorem exists_iterations_append (h h' : History) :
    ∃ earlier, (h ++ h').iterations = earlier ++ h'.iterations := by
  induction h with
  | nil => exact ⟨[], rfl⟩
  | cons e es ih =>
    obtain ⟨earlier, hearlier⟩ := ih
    rw [iterations] at hearlier
    cases he : e.isPrepared with
    | true =>
      refine ⟨(e :: (cut (es ++ h')).1) :: earlier, ?_⟩
      rw [List.cons_append, iterations, cut_cons he, hearlier]
      rfl
    | false =>
      refine ⟨earlier, ?_⟩
      rw [List.cons_append, iterations, cut_cons_of_not he, hearlier]

theorem getLast?_iterations_append {piece : History} (hlast : h'.iterations.getLast? = some piece) :
    (h ++ h').iterations.getLast? = some piece := by
  obtain ⟨earlier, hearlier⟩ := exists_iterations_append h h'
  rw [hearlier, List.getLast?_append, hlast]
  rfl

theorem Unrefining.ne_append {before behind : History} {e : Event} (hu : h.Unrefining)
    (he : e.isRefining = true) : h ≠ before ++ e :: behind := by
  intro heq
  have hmem : e ∈ h := heq ▸ List.mem_append_right _ List.mem_cons_self
  rw [hu e hmem] at he
  cases he

/-- What is refined comes behind events that refine nothing. -/
theorem Unrefining.eq_append {before behind : History} {e : Event} (hu : h.Unrefining)
    (he : e.isRefining = true) (heq : h ++ h' = before ++ e :: behind) :
    ∃ rest, before = h ++ rest ∧ h' = rest ++ e :: behind := by
  rcases List.append_eq_append_iff.mp heq with ⟨rest, hbefore, hrest⟩ | ⟨rest, hh, hrest⟩
  · exact ⟨rest, hbefore, hrest⟩
  · cases rest with
    | nil =>
      rw [List.append_nil] at hh
      exact ⟨[], by rw [List.append_nil, hh], hrest.symm⟩
    | cons e' rest =>
      obtain ⟨rfl, -⟩ := List.cons.inj hrest
      exact absurd hh (hu.ne_append he)

/-- What is refined comes before events that refine nothing. -/
theorem Unrefining.append_eq {before behind : History} {e : Event} (hu : h'.Unrefining)
    (he : e.isRefining = true) (heq : h ++ h' = before ++ e :: behind) :
    ∃ rest, h = before ++ e :: rest ∧ behind = rest ++ h' := by
  rcases List.append_eq_append_iff.mp heq with ⟨rest, -, hrest⟩ | ⟨rest, hh, hrest⟩
  · exact absurd hrest (hu.ne_append he)
  · cases rest with
    | nil =>
      have hrest : h' = [] ++ e :: behind := hrest.symm
      exact absurd hrest (hu.ne_append he)
    | cons e' rest =>
      obtain ⟨rfl, hbehind⟩ := List.cons.inj hrest
      exact ⟨rest, hh, hbehind⟩

end History

namespace Run

section

variable {ctx : RunContext} {iteration : UInt32}

/-- A row with a classification was written for a verdict. -/
theorem Account.mem_writes_iff {a : Account} {row : PartitionRecord} {c : Classification}
    (hresult : row.result = some c) : .partition row ∈ a.writes ctx ↔
      ∃ j ∈ a.judged, row = j.2.record ctx.benchmark ctx.tool a.number := by
  constructor
  · intro hrow
    rw [Account.writes, List.mem_cons, List.mem_append, List.mem_append] at hrow
    rcases hrow with hrow | hrow | hrow | hrow
    · cases hrow
    · obtain ⟨p, -, hrow⟩ := List.mem_map.mp hrow
      cases hrow
      cases hresult
    · obtain ⟨j, hj, hrow⟩ := List.mem_map.mp hrow
      cases hrow
      exact ⟨j, hj, rfl⟩
    · cases List.mem_singleton.mp hrow
  · rintro ⟨j, hj, rfl⟩
    refine List.mem_cons_of_mem _ (List.mem_append_right _ (List.mem_append_left _ ?_))
    exact List.mem_map_of_mem hj

/-- The undecided partitions are those whose verdicts are not definite. -/
theorem Accounted.undecided_iff {h : History} {a : Account} (hacc : Accounted ctx h a)
    (hwrites : startedRow ctx a.number :: h.writes = a.writes ctx) {p : Partition} :
    h.Undecided p ↔ ∃ v, (p, v) ∈ a.judged ∧ v.result.1.isConclusive = false := by
  have hwf := hacc.wellFormed
  have hrows {row : PartitionRecord} :
      .partition row ∈ h.writes ↔ .partition row ∈ a.writes ctx := by
    rw [← hwrites, List.mem_cons]
    exact (or_iff_right (by rintro ⟨⟩)).symm
  have hjudged {j : Partition × Verdict} (hj : j ∈ a.judged) : j.1 ∈ a.partitions := by
    have hmem : j.1 ∈ a.judged.map (·.1) := List.mem_map_of_mem hj
    rw [hwf.judged] at hmem
    exact List.mem_of_mem_take hmem
  have hnodup : (a.partitions.map (·.index)).Nodup := hwf.ascending.imp fun h => UInt32.ne_of_lt h
  rw [Undecided, ← hacc.partitions]
  constructor
  · rintro ⟨hp, row, c, hrow, hindex, hresult, hnot⟩
    obtain ⟨j, hj, rfl⟩ := (Account.mem_writes_iff hresult).mp (hrows.mp hrow)
    have heq : j.1.index = p.index := (hwf.index j hj).symm.trans hindex
    cases List.inj_on_of_nodup_map hnodup (hjudged hj) hp heq
    cases hresult
    exact ⟨j.2, hj, Classification.isConclusive_eq_false_iff.mpr hnot⟩
  · rintro ⟨v, hj, hresult⟩
    refine ⟨hjudged hj, v.record ctx.benchmark ctx.tool a.number, v.result.1, ?_, hwf.index _ hj,
      rfl, Classification.isConclusive_eq_false_iff.mp hresult⟩
    exact hrows.mpr ((Account.mem_writes_iff rfl).mpr ⟨_, hj, rfl⟩)

/-- An iteration hands on the names of the functions on its undecided paths. -/
theorem Analyzes.inconclusive_iff {es : History} {report : IterationReport}
    (h : Analyzes ctx iteration es (.ok report)) :
    ∃ piece, es.iterations = [piece] ∧ ∀ name, name ∈ report.inconclusive ↔
      ∃ p, piece.Undecided p ∧ p.Applies name := by
  obtain ⟨e, rest, a, rfl, hprepared, hwork, hacc, rfl, -, hwrites, -, -, hinconclusive⟩ :=
    h.accounted
  refine ⟨e :: rest, ?_, fun name => ?_⟩
  · have hrest : cut (rest ++ []) = (rest ++ [], []) :=
      History.cut_append fun e he => Event.not_isPrepared_of_isWork (hwork e he)
    rw [List.append_nil] at hrest
    rw [iterations, cut_cons_of_not rfl, cut_cons hprepared, hrest]
  · rw [hinconclusive]
    simp only [hacc.undecided_iff hwrites, Partition.mem_uifNames_iff]
    constructor
    · rintro ⟨⟨p, v⟩, hj, hresult, hname⟩
      exact ⟨p, ⟨v, hj, hresult⟩, hname⟩
    · rintro ⟨p, ⟨v, hj, hresult⟩, hname⟩
      exact ⟨(p, v), hj, hresult, hname⟩

/-! ## Selecting -/

/-- What was selected from some units after an iteration, when some names had been refined: the
history before ends with this iteration, which left the paths undecided on which the inconclusive
names occur, and the selected unit is expanded next. -/
def Selects (heuristic : Heuristic) (refined : List String) (before : History)
    (units : AbstractionSummary) (behind : History) : Prop :=
  ∃ piece inconclusive, before.iterations.getLast? = some piece ∧
    (∀ name, name ∈ inconclusive ↔ ∃ p, piece.Undecided p ∧ p.Applies name) ∧
    match heuristic.select? units (.ofList refined) inconclusive with
    | some unit => ∃ result, [.expanded unit result] <+: behind
    | none => behind.Unrefining

theorem Selects.prepend {heuristic : Heuristic} {refined : List String} {before behind : History}
    {units : AbstractionSummary} (h : Selects heuristic refined before units behind)
    (es : History) : Selects heuristic refined (es ++ before) units behind := by
  obtain ⟨piece, inconclusive, hlast, hrest⟩ := h
  exact ⟨piece, inconclusive, getLast?_iterations_append hlast, hrest⟩

theorem Selects.append {heuristic : Heuristic} {refined : List String}
    {before behind es : History} {units : AbstractionSummary}
    (h : Selects heuristic refined before units behind) (hu : es.Unrefining) :
    Selects heuristic refined before units (behind ++ es) := by
  obtain ⟨piece, inconclusive, hlast, hmem, hselect⟩ := h
  refine ⟨piece, inconclusive, hlast, hmem, ?_⟩
  split
  · next unit hunit =>
    rw [hunit] at hselect
    obtain ⟨result, hresult⟩ := hselect
    exact ⟨result, hresult.trans (List.prefix_append _ _)⟩
  · next hnone =>
    rw [hnone] at hselect
    exact hselect.append hu

/-- First the units are reported, and then the selected one is expanded. -/
theorem Refines.eq_cons {refined : List String} {inconclusive : NameSet} {es : History}
    {r : Except StopReason String} (h : Refines ctx refined inconclusive es r) :
    ∃ units rest, es = .summarized units :: rest ∧
      match ctx.settings.refinement.heuristic.select? units (.ofList refined) inconclusive with
      | some unit => ∃ result, rest = [.expanded unit result]
      | none => rest = [] ∧ r = .error .nothingLeftToRefine := by
  cases h with
  | exhausted select => exact ⟨_, _, rfl, by rw [select]; exact ⟨rfl, rfl⟩⟩
  | expired select | failed select | expanded select =>
    exact ⟨_, _, rfl, by rw [select]; exact ⟨_, rfl⟩⟩

/-- A summary behind an iteration is the one that is refined by, or comes later. -/
theorem Refines.selects {progress : Progress} {report : IterationReport} {es es' rest : History}
    {r : Except StopReason String} {before behind : History} {units : AbstractionSummary}
    (analyzes : Analyzes ctx iteration es (.ok report))
    (refines : Refines ctx progress.refined report.inconclusive es' r)
    (hrest : r = .error .nothingLeftToRefine → rest = [])
    (heq : es ++ (es' ++ rest) = before ++ .summarized units :: behind) :
    Selects ctx.settings.refinement.heuristic (progress.refined ++ before.expansions) before units
        behind ∨
      ∃ before', before = es ++ (es' ++ before') ∧
        rest = before' ++ .summarized units :: behind := by
  have hu := analyzes.unrefining.1
  obtain ⟨before, rfl, hrefining⟩ := hu.eq_append rfl heq
  clear heq
  obtain ⟨units', tail, rfl, hselect⟩ := refines.eq_cons
  cases before with
  | nil =>
    obtain ⟨hunits, rfl⟩ := List.cons.inj hrefining
    cases hunits
    obtain ⟨piece, hpiece, hmem⟩ := analyzes.inconclusive_iff
    rw [List.append_nil, hu.expansions_eq, List.append_nil]
    refine .inl ⟨piece, report.inconclusive, by rw [hpiece]; rfl, hmem, ?_⟩
    split
    · next unit hunit =>
      rw [hunit] at hselect
      obtain ⟨result, rfl⟩ := hselect
      exact ⟨result, List.prefix_append _ _⟩
    · next hnone =>
      rw [hnone] at hselect
      obtain ⟨rfl, hr⟩ := hselect
      rw [hrest hr]
      simp [Unrefining]
  | cons e before =>
    obtain ⟨rfl, htail⟩ := List.cons.inj hrefining
    clear hrefining
    split at hselect
    · obtain ⟨result, rfl⟩ := hselect
      cases before with
      | nil => cases htail
      | cons e before =>
        obtain ⟨rfl, hlater⟩ := List.cons.inj htail
        exact .inr ⟨before, rfl, hlater⟩
    · obtain ⟨rfl, hr⟩ := hselect
      rw [hrest hr] at htail
      simp at htail

/-- Every summary in some iterations is selected from. -/
theorem Iterates.selects {remaining : Nat} {progress : Progress} {es : History}
    {r : Except Failure (Progress × StopReason)} (h : Iterates ctx remaining progress es r)
    {before behind : History} {units : AbstractionSummary}
    (heq : es = before ++ .summarized units :: behind) :
    Selects ctx.settings.refinement.heuristic (progress.refined ++ before.expansions) before units
      behind := by
  induction h generalizing before behind units with
  | exhausted => simp at heq
  | failed analyzes => exact absurd heq (analyzes.unrefining.1.ne_append rfl)
  | timedOut analyzes | stopped analyzes =>
    exact absurd heq (analyzes.unrefining.1.ne_append rfl)
  | @unrefined remaining progress es es' report reason analyzes _ _ refines =>
    rw [← List.append_nil es'] at heq
    rcases refines.selects analyzes (fun _ => rfl) heq with h | ⟨before', -, h⟩
    · exact h
    · simp at h
  | @next remaining progress es es' es'' report unit r analyzes _ _ refines _ ih =>
    rcases refines.selects analyzes (by rintro ⟨⟩) heq with h | ⟨before', rfl, h⟩
    · exact h
    · have hselects := ((ih h).prepend es').prepend es
      have hexpansions :
          History.expansions (es ++ (es' ++ before')) = unit :: before'.expansions := by
        rw [expansions_append, expansions_append, analyzes.unrefining.1.expansions_eq,
          refines.expansions.2.1]
        rfl
      rw [hexpansions]
      have hrefined : ((progress.analyzed report).expanded unit).refined ++ before'.expansions =
          progress.refined ++ unit :: before'.expansions := List.append_assoc _ [unit] _
      rwa [hrefined] at hselects

/-- What comes before the first iteration and behind the last one does not matter. -/
theorem Iterates.selects_between {remaining : Nat} {outside es es' : History}
    {r : Except Failure (Progress × StopReason)} (h : Iterates ctx remaining {} es r)
    (houtside : ∀ e ∈ outside, e.isOutside) (hu : es'.Unrefining) {before behind : History}
    {units : AbstractionSummary}
    (heq : outside ++ (es ++ es') = before ++ .summarized units :: behind) :
    Selects ctx.settings.refinement.heuristic before.expansions before units behind := by
  have hout := Unrefining.of_isOutside houtside
  obtain ⟨before, rfl, hiterating⟩ := hout.eq_append rfl heq
  obtain ⟨behind, rfl, rfl⟩ := hu.append_eq rfl hiterating
  rw [expansions_append, hout.expansions_eq]
  exact ((h.selects rfl).prepend outside).append hu

/-- Every summary in a run is selected from. -/
theorem Runs.selects {request : RunRequest} {h : History} {r : Except Failure RunOutcome}
    (runs : Runs ctx request h r) {before behind : History} {units : AbstractionSummary}
    (heq : h = before ++ .summarized units :: behind) :
    Selects ctx.settings.refinement.heuristic before.expansions before units behind := by
  cases runs with
  | unopened opens =>
    exact absurd heq ((Unrefining.of_isOutside opens.isOutside).ne_append rfl)
  | missing opens looks finishes =>
    refine absurd heq ((Unrefining.of_isOutside ?_).ne_append rfl)
    exact List.forall_mem_append.mpr ⟨opens.isOutside,
      List.forall_mem_append.mpr ⟨looks.isOutside, finishes.isOutside⟩⟩
  | @failed es es' es'' run e opens looks iterates =>
    have hbefore : ∀ e ∈ es ++ es', e.isOutside :=
      List.forall_mem_append.mpr ⟨opens.isOutside, looks.isOutside⟩
    have hnothing : Unrefining [] := by simp [Unrefining]
    refine iterates.selects_between hbefore hnothing ?_
    rw [List.append_nil, List.append_assoc]
    exact heq
  | @iterated es es' es'' es₄ run progress reason r opens looks iterates finishes =>
    have hbefore : ∀ e ∈ es ++ es', e.isOutside :=
      List.forall_mem_append.mpr ⟨opens.isOutside, looks.isOutside⟩
    refine iterates.selects_between hbefore (Unrefining.of_isOutside finishes.isOutside) ?_
    rw [List.append_assoc]
    exact heq

end

end Run

/-! ## Candidates in order -/

/-- The candidates are the units that the heuristic admits, as often as they are declared, sorted by
its key and otherwise in the order of their declarations. The first one is selected, and there is
none exactly if all shared units are refined. In a run this goes by the names of the functions on
the undecided paths of the last iteration. -/
theorem candidates_in_order :
    (∀ (heuristic : Heuristic) (units : AbstractionSummary) (refined inconclusive : NameSet),
      (∀ l, heuristic.candidates units refined inconclusive = l ↔ StablySorts heuristic.key
        (units.filter (heuristic.Admits units refined inconclusive)) l) ∧
      (∀ u, heuristic.select? units refined inconclusive = some u ↔
        ∃ rest, heuristic.candidates units refined inconclusive = u :: rest) ∧
      (heuristic.select? units refined inconclusive = none ↔
        ∀ u ∈ units, u.inV1 → u.inV2 → u.name ∈ refined)) ∧
    ∀ {σ : Type} (settings : Settings) (env : Environment (StateM σ)) (request : RunRequest) (s : σ)
      (before : History) (units : AbstractionSummary) (behind : History),
      settings.history env request s = before ++ .summarized units :: behind →
        Run.Selects settings.refinement.heuristic before.expansions before units behind := by
  refine ⟨fun heuristic units refined inconclusive => ⟨fun l => Heuristic.candidates_eq_iff,
    fun u => Heuristic.select?_eq_some_iff, Heuristic.select?_eq_none_iff⟩, ?_⟩
  intro σ settings env request s before units behind h
  rcases settings.runs_or env request s with ⟨watchdog, runs⟩ | ⟨hnil, -⟩
  · exact runs.selects h
  · rw [hnil] at h
    simp at h

/-- In a rehearsal a summary is selected from that has the function that is put back. -/
theorem candidates_in_order_rehearsal :
    ∃ before units behind, (Settings.default 1).history Rehearsal.environment { benchmark := "f" }
        replayingStage = before ++ .summarized units :: behind ∧
      "f" ∈ units.shared.map (·.name) ∧
      Run.Selects .h123 before.expansions before units behind := by
  have hrefined : ((((Settings.default 1).analyze Rehearsal.environment { benchmark := "f" }).run
      replayingStage).1.toOption.map (·.refined)) = some ["f"] := by
    decide +kernel
  cases hr : (((Settings.default 1).analyze Rehearsal.environment { benchmark := "f" }).run
      replayingStage).1 with
  | error e => simp [hr, Except.toOption] at hrefined
  | ok outcome =>
    have hnames : outcome.refined = ["f"] := by simpa [hr, Except.toOption] using hrefined
    obtain ⟨⟨watchdog, runs⟩, -⟩ := Settings.runs_history hr
    have hshared := runs.expanding.shared "f" <| by
      rw [← runs.refinedOnce.expansions, hnames]
      exact List.mem_singleton_self "f"
    obtain ⟨units, hunits, hname⟩ := List.mem_flatMap.mp hshared
    obtain ⟨e, he, hsummary⟩ := List.mem_filterMap.mp hunits
    cases e with
    | summarized =>
      cases hsummary
      obtain ⟨before, behind, hsplit⟩ := List.append_of_mem he
      exact ⟨before, units, behind, hsplit, hname, candidates_in_order.2 _ _ _ _ _ _ _ hsplit⟩
    | _ => cases hsummary

end Regression
