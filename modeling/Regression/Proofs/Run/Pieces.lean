import Regression.Proofs.Aggregation
import Regression.Proofs.Run.Analysis

/-!
# The pieces of a run

The history of a run falls into pieces, one for each iteration; the work before the first one and
behind the last one tells nothing.

* `Run.Iterates.accounts`: each iteration has an account of the piece with its events, and the
  accounts say what was written.
* `Run.Runs.pieces`: each iteration of the outcome was analysed in its piece.
* `Run.Iterates.timedOut_of_expanded`: a run stops when a unit could not be put back in time.
-/

namespace Regression

open History

namespace Event

/-- Part of the work before the first iteration, or behind the last one. -/
def isOutside : Event → Bool
  | .looked .. | .reset .. => true
  | .wrote (.run _) _ | .wrote (.deleteRun ..) _ | .wrote (.time _) _ => true
  | _ => false

theorem isAside_of_isOutside {e : Event} (h : e.isOutside) : e.isAside := by
  cases e with
  | wrote w result => cases w <;> first | rfl | cases h
  | _ => first | rfl | cases h

end Event

namespace History

theorem Aside.of_isOutside {h : History} (ho : ∀ e ∈ h, e.isOutside) : h.Aside :=
  fun e he => Event.isAside_of_isOutside (ho e he)

theorem cut_subset (h : History) : h.cut.1 ⊆ h ∧ ∀ piece ∈ h.cut.2, piece ⊆ h := by
  induction h with
  | nil => simp [cut]
  | cons e es ih =>
    obtain ⟨hbefore, hpieces⟩ := ih
    cases hp : e.isPrepared with
    | true =>
      rw [cut_cons hp]
      refine ⟨List.nil_subset _, List.forall_mem_cons.mpr ⟨?_, ?_⟩⟩
      · exact List.cons_subset_cons _ hbefore
      · exact fun piece hpiece => List.subset_cons_of_subset _ (hpieces piece hpiece)
    | false =>
      rw [cut_cons_of_not hp]
      refine ⟨List.cons_subset_cons _ hbefore, ?_⟩
      exact fun piece hpiece => List.subset_cons_of_subset _ (hpieces piece hpiece)

end History

namespace Run

section

variable {ctx : RunContext}

/-! ## Outside of the iterations -/

theorem Opens.isOutside {es : History} {r : Except Failure RunRecord} (h : Opens ctx es r) :
    ∀ e ∈ es, e.isOutside := by
  cases h <;> simp [Event.isOutside]

theorem Looks.isOutside {request : RunRequest} {es : History} {missing? : Option String}
    (h : Looks request es missing?) : ∀ e ∈ es, e.isOutside := by
  cases h <;> simp [Event.isOutside]

theorem PutsAll.isOutside {rows : List StoreWrite} {es : History} {r : Except Failure Unit}
    (h : PutsAll rows es r) (hrows : ∀ w ∈ rows, ∃ record, w = .time record) :
    ∀ e ∈ es, e.isOutside := by
  induction h with
  | done => simp
  | failed =>
    obtain ⟨record, rfl⟩ := hrows _ List.mem_cons_self
    simp [Event.isOutside]
  | next _ ih =>
    obtain ⟨record, rfl⟩ := hrows _ List.mem_cons_self
    exact List.forall_mem_cons.mpr ⟨rfl, ih fun w hw => hrows w (List.mem_cons_of_mem _ hw)⟩

theorem Finishes.isOutside {run : RunRecord} {progress : Progress} {reason : StopReason}
    {es : History} {r : Except Failure RunOutcome} (h : Finishes ctx run progress reason es r) :
    ∀ e ∈ es, e.isOutside := by
  have htimes (times : List TimeRecord) : ∀ w ∈ times.map StoreWrite.time,
      ∃ record, w = .time record := by
    intro w hw
    obtain ⟨record, -, rfl⟩ := List.mem_map.mp hw
    exact ⟨record, rfl⟩
  cases h with
  | unstored => simp [Event.isOutside]
  | failed _ puts => exact List.forall_mem_cons.mpr ⟨rfl, puts.isOutside (htimes _)⟩
  | done _ puts => exact List.forall_mem_cons.mpr ⟨rfl, puts.isOutside (htimes _)⟩

/-! ## Iterations -/

theorem Refines.aside {refined : List String} {inconclusive : NameSet} {es : History}
    {r : Except StopReason String} (h : Refines ctx refined inconclusive es r) :
    es.Aside ∧ es.writes = [] := by
  cases h <;> exact ⟨by simp [Aside, Event.isAside], rfl⟩

/-- An iteration that was analysed begins a piece, to which what comes aside may be added. -/
theorem Analyzes.cut_append {iteration : UInt32} {es : History} {report : IterationReport}
    (h : Analyzes ctx iteration es (.ok report)) (rest : History) (ha : rest.cut.1.Aside) :
    ∃ piece a, (es ++ rest).cut = ([.wrote (startedRow ctx iteration) (.ok ())],
      piece :: rest.cut.2) ∧ rest.cut.1 <:+ piece ∧ Accounted ctx piece a ∧ a.number = iteration ∧
        a.record = report.record ∧ es.writes = a.writes ctx := by
  obtain ⟨e, es', a, rfl, hprepared, hwork, hacc, hnumber, hrecord, hwrites, -, -⟩ := h.accounted
  refine ⟨e :: es' ++ rest.cut.1, a, ?_, List.suffix_append _ _, hacc.append ha, hnumber, hrecord,
    hwrites⟩
  have hrest : cut (es' ++ rest) = (es' ++ rest.cut.1, rest.cut.2) :=
    History.cut_append fun e he => Event.not_isPrepared_of_isWork (hwork e he)
  rw [List.cons_append, List.cons_append, cut_cons_of_not rfl, cut_cons hprepared, hrest]
  rfl

/-- The numbers of iterations that follow some others. -/
def numbersFrom (before count : Nat) : List UInt32 :=
  (List.range' (before + 1) count).map UInt32.ofNat

/-- The iterations of a run have accounts of their pieces of the history, and are numbered. -/
structure Iterates.Accounts (ctx : RunContext) (before after : List IterationRecord)
    (es tail : History) (accounts : List Account) : Prop where
  records : after = before ++ accounts.map (·.record)
  numbers : accounts.map (·.number) = numbersFrom before.length accounts.length
  writes : es.writes = accounts.flatMap (·.writes ctx)
  aside : (es ++ tail).cut.1.Aside
  pieces : List.Forall₂ (Accounted ctx) (es ++ tail).iterations accounts

/-- The events behind an iteration are aside up to the next one, which starts with its row. -/
theorem Analyzes.accounts {progress : Progress} {report : IterationReport} {es es' tail : History}
    (h : Analyzes ctx progress.next es (.ok report)) (ha : es'.Aside) (hwrites : es'.writes = [])
    (htail : tail.Aside) :
    ∃ accounts, Iterates.Accounts ctx progress.iterations (progress.analyzed report).iterations
      (es ++ es') tail accounts ∧ accounts.length = 1 := by
  have hcut' : (es' ++ tail).cut = (es' ++ tail, []) := (ha.append htail).quiet.cut_eq
  obtain ⟨piece, a, hcut, -, hacc, hnumber, hrecord, hes⟩ := h.cut_append (es' ++ tail)
    (by rw [hcut']; exact ha.append htail)
  refine ⟨[a], ⟨?_, ?_, ?_, ?_, ?_⟩, rfl⟩
  · simp [Progress.analyzed, hrecord]
  · rw [List.map_singleton, hnumber]
    rfl
  · rw [writes_append, hes, hwrites]
    simp
  · rw [List.append_assoc, hcut]
    simp [Aside, startedRow, Event.isAside]
  · rw [List.append_assoc, iterations, hcut, hcut']
    exact .cons hacc .nil

/-- Every iteration of a run has an account of its piece of the history. -/
theorem Iterates.accounts {remaining : Nat} {progress progress' : Progress} {reason : StopReason}
    {es tail : History} (h : Iterates ctx remaining progress es (.ok (progress', reason)))
    (htail : tail.Aside) :
    ∃ accounts, Accounts ctx progress.iterations progress'.iterations es tail accounts ∧
      accounts.length ≤ remaining := by
  generalize hr : Except.ok (progress', reason) = r at h
  induction h with
  | exhausted | failed => cases hr
  | timedOut analyzes | stopped analyzes =>
    cases hr
    have hnone : Aside [] := by simp [Aside]
    obtain ⟨accounts, haccounts, hlength⟩ := analyzes.accounts hnone rfl htail
    rw [List.append_nil] at haccounts
    exact ⟨accounts, haccounts, by omega⟩
  | unrefined analyzes _ _ refines =>
    cases hr
    obtain ⟨accounts, haccounts, hlength⟩ :=
      analyzes.accounts refines.aside.1 refines.aside.2 htail
    exact ⟨accounts, haccounts, by omega⟩
  | @next remaining progress es es' es'' report unit r analyzes _ _ refines _ ih =>
    obtain ⟨accounts, haccounts, hlength⟩ := ih hr
    have hcut : (es' ++ (es'' ++ tail)).cut =
        (es' ++ (es'' ++ tail).cut.1, (es'' ++ tail).cut.2) :=
      cut_append refines.aside.1.quiet.not_isPrepared
    obtain ⟨piece, a, hcut', -, hacc, hnumber, hrecord, hes⟩ :=
      analyzes.cut_append (es' ++ (es'' ++ tail))
        (by rw [hcut]; exact refines.aside.1.append haccounts.aside)
    have hbefore : ((progress.analyzed report).expanded unit).iterations =
        progress.iterations ++ [report.record] := rfl
    refine ⟨a :: accounts, ⟨?_, ?_, ?_, ?_, ?_⟩, by rw [List.length_cons]; omega⟩
    · rw [haccounts.records, hbefore, List.append_assoc, List.map_cons, hrecord]
      rfl
    · have hnumbers := haccounts.numbers
      rw [hbefore, List.length_append] at hnumbers
      rw [List.map_cons, hnumber, hnumbers, List.length_cons]
      rfl
    · rw [writes_append, writes_append, hes, refines.aside.2, haccounts.writes, List.nil_append,
        List.flatMap_cons]
    · rw [List.append_assoc, List.append_assoc, hcut']
      simp [Aside, startedRow, Event.isAside]
    · rw [List.append_assoc, List.append_assoc, iterations, hcut', hcut]
      exact .cons hacc haccounts.pieces

/-- A run stops if a unit could not be put back in time. -/
theorem Iterates.timedOut_of_expanded {remaining : Nat} {progress progress' : Progress}
    {reason : StopReason} {es : History} {unit : AbstractedUnit}
    (h : Iterates ctx remaining progress es (.ok (progress', reason)))
    (hmem : .expanded unit .expired ∈ es) : reason = .timedOut := by
  generalize hr : Except.ok (progress', reason) = r at h
  have hanalyzes {iteration : UInt32} {es : History} {report : IterationReport}
      (analyzes : Analyzes ctx iteration es (.ok report)) : .expanded unit .expired ∉ es := by
    obtain ⟨e, rest, a, rfl, hprepared, hwork, -⟩ := analyzes.accounted
    intro hmem
    rcases List.mem_cons.mp hmem with heq | hmem
    · cases heq
    · rcases List.mem_cons.mp hmem with rfl | hmem
      · cases hprepared
      · cases hwork _ hmem
  induction h with
  | exhausted | failed => cases hr
  | timedOut => cases hr; rfl
  | stopped analyzes => exact absurd hmem (hanalyzes analyzes)
  | unrefined analyzes _ _ refines =>
    rcases List.mem_append.mp hmem with hmem | hmem
    · exact absurd hmem (hanalyzes analyzes)
    · cases hr
      cases refines with
      | expired => rfl
      | exhausted | failed => simp at hmem
  | next analyzes _ _ refines _ ih =>
    rcases List.mem_append.mp hmem with hmem | hmem
    · exact absurd hmem (hanalyzes analyzes)
    · rcases List.mem_append.mp hmem with hmem | hmem
      · cases refines
        simp at hmem
      · exact ih hmem hr

theorem Iterates.iterations_ne_nil {remaining : Nat} {progress progress' : Progress}
    {reason : StopReason} {es : History}
    (h : Iterates ctx remaining progress es (.ok (progress', reason))) :
    progress'.iterations ≠ [] := by
  generalize hr : Except.ok (progress', reason) = r at h
  induction h with
  | exhausted | failed => cases hr
  | timedOut | stopped | unrefined =>
    cases hr
    simp [Progress.analyzed]
  | next _ _ _ _ _ ih => exact ih hr

theorem Iterates.ne_baseToolMissing {remaining : Nat} {progress progress' : Progress}
    {reason : StopReason} {es : History}
    (h : Iterates ctx remaining progress es (.ok (progress', reason))) :
    reason ≠ .baseToolMissing := by
  generalize hr : Except.ok (progress', reason) = r at h
  induction h with
  | exhausted | failed => cases hr
  | timedOut => cases hr; simp
  | stopped _ _ stop =>
    cases hr
    rcases stopAfter?_eq_some stop with rfl | rfl <;> rintro ⟨⟩
  | unrefined _ _ _ refines =>
    cases hr
    cases refines <;> simp
  | next _ _ _ _ _ ih => exact ih hr

/-! ## Runs -/

/-- A run that ends well has no input, or has iterated. -/
theorem Runs.of_ok {request : RunRequest} {h : History} {outcome : RunOutcome}
    (runs : Runs ctx request h (.ok outcome)) :
    (∀ e ∈ h, e.isOutside) ∧ outcome.stopReason = .baseToolMissing ∧ outcome.iterations = [] ∧
        outcome.run.result = some .baseToolMissing ∨
      ∃ before es behind progress, h = before ++ (es ++ behind) ∧ (∀ e ∈ before, e.isOutside) ∧
        (∀ e ∈ behind, e.isOutside) ∧
        Iterates ctx (UInt32.size - 1) {} es (.ok (progress, outcome.stopReason)) ∧
        outcome.iterations = progress.iterations ∧
        outcome.run.result = some (resultOf outcome.stopReason progress.iterations) := by
  cases runs with
  | missing opens looks finishes =>
    refine .inl ⟨?_, ?_⟩
    · simp only [List.forall_mem_append]
      exact ⟨opens.isOutside, looks.isOutside, finishes.isOutside⟩
    · cases finishes
      exact ⟨rfl, rfl, rfl⟩
  | @iterated es es' es'' es₄ run progress reason _ opens looks iterates finishes =>
    have hbehind := finishes.isOutside
    cases finishes
    refine .inr ⟨es ++ es', es'', _, progress, (List.append_assoc ..).symm, ?_, hbehind, iterates,
      rfl, rfl⟩
    exact List.forall_mem_append.mpr ⟨opens.isOutside, looks.isOutside⟩

/-- Each iteration of the outcome was analysed in the piece with its events. -/
theorem Runs.pieces {request : RunRequest} {h : History} {outcome : RunOutcome}
    (runs : Runs ctx request h (.ok outcome)) :
    List.Forall₂ (fun piece record => ∃ iteration judged,
      Analyzed ctx iteration piece judged record) h.iterations outcome.iterations := by
  rcases runs.of_ok with ⟨hout, -, hnil, -⟩ | ⟨before, es, behind, progress, rfl, hbefore, hbehind,
    iterates, hiterations, -⟩
  · rw [iterations, (Aside.of_isOutside hout).quiet.cut_eq, hnil]
    exact .nil
  · obtain ⟨accounts, haccounts, -⟩ := iterates.accounts (Aside.of_isOutside hbehind)
    rw [iterations, cut_append (Aside.of_isOutside hbefore).quiet.not_isPrepared, hiterations,
      haccounts.records, List.nil_append, List.forall₂_map_right_iff]
    exact haccounts.pieces.imp fun piece a hacc => ⟨a.number, a.judged, hacc.analyzed⟩

end

end Run

end Regression
