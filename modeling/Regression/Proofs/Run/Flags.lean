import Regression.Proofs.Run.Refusals
import Regression.Proofs.Run.Stored
import Regression.Proofs.Run.Storing

/-!
# Rows that follow from other rows

What a run keeps of an iteration follows from the rows of its partitions, and what it keeps of
itself from the rows of its iterations. To the rows of the partitions comes whether something went
wrong with the iteration as a whole: preparing or exploring failed, or a batch was aborted.

* `rows_follow`: the row of every iteration, and the row of the run.
* `rows_follow_aborted`: that preparing and exploring did not fail is not enough.
-/

namespace Regression

open History

/-! ## What went wrong -/

/-- Preparing the versions failed, or the source did. -/
def Event.isFault : Event → Bool
  | .prepared _ (.done (.error _)) => true
  | .started _ (.done (.error _)) => true
  | .pulled (.done (.error _)) => true
  | _ => false

/-- Preparing the versions failed, or the source did, which includes the delivery of an index that
does not follow. -/
def History.faulty (h : History) : Bool := h.any Event.isFault || !h.inOrder

/-- The error flag of an iteration. It is raised by every fault and by an aborted batch, and by
nothing else unless the store refuses a row. -/
structure History.Flags (piece : History) (isError : Bool) : Prop where
  raised : piece.faulty ∨ piece.aborted → isError
  caused : isError → piece.faulty ∨ piece.aborted ∨ piece.refused ≠ []

theorem Event.isFailure_iff {e : Event} : e.isFailure ↔ e.isFault ∨ e.refused?.isSome := by
  cases e with
  | prepared iteration result | started iteration result | pulled result =>
    rcases result with (_ | _) | _ <;> simp [isFailure, isFault, refused?]
  | wrote w result => cases w <;> cases result <;> simp [isFailure, isFault, refused?]
  | _ => simp [isFailure, isFault, refused?]

/-- What fails beside a fault is a row that the store refuses. -/
theorem History.failed_iff {h : History} : h.failed ↔ h.faulty ∨ h.refused ≠ [] := by
  have hrefused : h.refused ≠ [] ↔ ∃ e ∈ h, e.refused?.isSome := by
    simp [refused, List.filterMap_eq_nil_iff, Option.isSome_iff_ne_none]
  rw [hrefused, failed, faulty, Bool.or_eq_true, Bool.or_eq_true, List.any_eq_true,
    List.any_eq_true]
  constructor
  · rintro (⟨e, he, hfailure⟩ | horder)
    · rcases Event.isFailure_iff.mp hfailure with hfault | hsome
      · exact .inl (.inl ⟨e, he, hfault⟩)
      · exact .inr ⟨e, he, hsome⟩
    · exact .inl (.inr horder)
  · rintro ((⟨e, he, hfault⟩ | horder) | ⟨e, he, hsome⟩)
    · exact .inl ⟨e, he, Event.isFailure_iff.mpr (.inl hfault)⟩
    · exact .inr horder
    · exact .inl ⟨e, he, Event.isFailure_iff.mpr (.inr hsome)⟩

theorem History.flags_failed (piece : History) : piece.Flags (piece.failed || piece.aborted) where
  raised := by
    rintro (hfault | haborted)
    · rw [failed_iff.mpr (.inl hfault)]
      rfl
    · rw [haborted, Bool.or_true]
  caused := by
    intro hflag
    rcases (Bool.or_eq_true _ _).mp hflag with hfailed | haborted
    · rcases failed_iff.mp hfailed with hfault | hrefused
      exacts [.inl hfault, .inr (.inr hrefused)]
    · exact .inr (.inl haborted)

/-! ## Rows -/

/-- The row of an iteration follows from those of its partitions and from the error flag. -/
structure IterationRecord.FollowsFrom (record : IterationRecord) (rows : List PartitionRecord)
    (isError : Bool) : Prop where
  result : record.result =
    some (classifyIteration ((rows.filter (·.isClassified)).filterMap (·.result))
      ⟨isError, record.hasTimedOut == some true⟩)
  hasUif : record.hasUif = some ((rows.filter (·.isClassified)).any (·.hasUif == some true))
  isDepthLimited : record.isDepthLimited =
    some ((rows.filter (·.isClassified)).any (·.isDepthLimited == some true))

/-- The row of a run that stopped for a reason follows from those of its iterations. -/
structure RunRecord.FollowsFrom (run : RunRecord) (iterations : List IterationRecord)
    (reason : StopReason) : Prop where
  hasUif : run.hasUif = some (iterations.any (·.hasUif == some true))
  isDepthLimited : run.isDepthLimited = some (iterations.any (·.isDepthLimited == some true))
  hasTimedOut : run.hasTimedOut =
    some (reason == .timedOut || iterations.any (·.hasTimedOut == some true))
  iterationCount : run.iterationCount.map (·.toNat) = some iterations.length

theorem some_beq_some_true (b : Bool) : (some b == some true) = b := by
  cases b <;> rfl

theorem Verdict.hasUif_record (v : Verdict) (benchmark tool : String) (iteration : UInt32) :
    (v.record benchmark tool iteration).hasUif = some v.hasUif := by
  simp [Verdict.record, PartitionRecord.hasUif, Verdict.hasUif]

namespace Run

variable {ctx : RunContext}

/-- What was noted while verdicts were stored follows from the rows. -/
theorem Accounted.followsFrom {piece : History} {a : Account} (hacc : Accounted ctx piece a) :
    a.record.FollowsFrom (a.rows ctx) (piece.failed || piece.aborted) where
  result := by
    have hclasses : (a.verdictRecords ctx).filterMap (·.result) =
        a.judged.map (·.2.result.1) := by
      rw [Account.verdictRecords, List.filterMap_map]
      exact congrFun List.filterMap_eq_map a.judged
    rw [a.filter_rows, hclasses, hacc.analyzed.result, hacc.analyzed.hasTimedOut,
      some_beq_some_true]
  hasUif := by
    have hsame (j : Partition × Verdict) : j.2.hasUif =
        ((j.2.record ctx.benchmark ctx.tool a.number).hasUif == some true) := by
      rw [Verdict.hasUif_record, some_beq_some_true]
    rw [a.filter_rows, hacc.hasUif, Account.verdictRecords, List.any_map]
    exact congrArg (fun p => some (a.judged.any p)) (funext hsame)
  isDepthLimited := by
    have hsame (j : Partition × Verdict) : j.2.depthLimited =
        ((j.2.record ctx.benchmark ctx.tool a.number).isDepthLimited == some true) :=
      (some_beq_some_true _).symm
    rw [a.filter_rows, hacc.isDepthLimited, Account.verdictRecords, List.any_map]
    exact congrArg (fun p => some (a.judged.any p)) (funext hsame)

/-- The record of a run is completed from those of its iterations. -/
theorem Runs.Accounts.followsFrom {h : History} {outcome : RunOutcome} {first : RunRecord}
    {accounts : List Account} {times : List TimeRecord}
    (haccounts : Runs.Accounts ctx h outcome first accounts times) :
    outcome.run.FollowsFrom outcome.iterations outcome.stopReason := by
  obtain ⟨run, elapsed, -, hrun⟩ := haccounts.run_eq
  have hlt := haccounts.length_iterations_lt
  rw [hrun]
  refine ⟨rfl, rfl, rfl, ?_⟩
  rw [completed, Option.map_some, UInt32.toNat_ofNat_of_lt' hlt]

end Run

/-- After every run that ended well the row of each iteration follows from those of its partitions
and from what went wrong with it, and the row of the run from those of its iterations. -/
theorem rows_follow {σ : Type} {store : σ → MemoryStore} {settings : Settings}
    {env : Environment (StateM σ)} {request : RunRequest} {s : σ} {outcome : RunOutcome}
    (keeps : env.Keeps store) (h : ((settings.analyze env request).run s).1 = .ok outcome) :
    let after := store ((settings.analyze env request).run s).2
    List.Forall₂ (fun piece record => ∃ isError, History.Flags piece isError ∧
        record.FollowsFrom
          (after.listPartitions request.benchmark settings.label record.iteration) isError)
      (settings.history env request s).iterations
      (after.listIterations request.benchmark settings.label) ∧
    ∃ run, after.getRun request.benchmark settings.label = some run ∧
      run.FollowsFrom (after.listIterations request.benchmark settings.label)
        outcome.stopReason := by
  intro after
  obtain ⟨watchdog, first, accounts, times, haccounts, hleft⟩ := Settings.left keeps h
  have hiterations : after.listIterations request.benchmark settings.label = outcome.iterations :=
    hleft.listIterations
  rw [hiterations]
  refine ⟨?_, outcome.run, hleft.getRun, haccounts.followsFrom⟩
  refine haccounts.forall₂ hleft fun piece a hacc hrows => ?_
  have hrows : after.listPartitions request.benchmark settings.label a.record.iteration =
      a.rows (settings.context request watchdog) := hrows
  rw [hrows]
  exact ⟨_, piece.flags_failed, hacc.followsFrom⟩

/-- Both versions return what a function computes, and the row of the run says so. -/
theorem rows_follow_unchanged :
    ∃ (outcome : RunOutcome) (after : MemoryStore) (h : History),
      outcome.run.hasUif = some true ∧
      List.Forall₂ (fun piece record => ∃ isError, History.Flags piece isError ∧
          record.FollowsFrom (after.listPartitions "f" "CEGAR" record.iteration) isError)
        h.iterations (after.listIterations "f" "CEGAR") ∧
      ∃ run, after.getRun "f" "CEGAR" = some run ∧
        run.FollowsFrom (after.listIterations "f" "CEGAR") outcome.stopReason := by
  have hrun : (((Settings.default 1).analyze (Environment.delivering unchanged agreeing).storing
      { benchmark := "f" }).run (false, .empty)).1.toOption.bind (·.run.hasUif) = some true := by
    decide +kernel
  cases hr : (((Settings.default 1).analyze (Environment.delivering unchanged agreeing).storing
      { benchmark := "f" }).run (false, .empty)).1 with
  | error e => simp [hr, Except.toOption] at hrun
  | ok outcome =>
    have huif : outcome.run.hasUif = some true := by simpa [hr, Except.toOption] using hrun
    exact ⟨outcome, _, _, huif, rows_follow (Environment.storing_keeps _) hr⟩

/-- Every batch is aborted. -/
def Environment.aborting (p : Partition) (status : QueryKind → Status) (cause : String) :
    Environment (StateM Bool) :=
  { Environment.delivering p status with closeBatch := fun _ => pure (.done (.error cause)) }

/-- The store refuses the row of a partition that is not classified. -/
def Environment.refusingRows {σ : Type} (env : Environment (StateM σ)) (e : StorageError) :
    Environment (StateM σ) :=
  { env with write := fun w => if w.isIndexRow then pure (.error e) else env.write w }

/-- An iteration with an error and without verdicts does not follow from its rows alone. -/
theorem not_follows_of_error {pieces : List History} {records : List IterationRecord}
    {rows : IterationRecord → List PartitionRecord} (hpieces : pieces.map (·.faulty) = [false])
    (hrecords : records.map (fun r => (r.result,
      ((rows r).filter (·.isClassified)).filterMap (·.result))) = [(some .error, [])]) :
    ¬ List.Forall₂ (fun piece record => record.FollowsFrom (rows record) piece.faulty)
      pieces records := by
  obtain ⟨piece, rfl, hpiece⟩ := List.map_eq_singleton_iff.mp hpieces
  obtain ⟨record, rfl, hrecord⟩ := List.map_eq_singleton_iff.mp hrecords
  obtain ⟨hresult, hclasses⟩ := Prod.mk.inj hrecord
  rw [List.forall₂_cons]
  rintro ⟨follows, -⟩
  have hfollows := follows.result
  rw [hresult, hclasses, hpiece] at hfollows
  cases htime : record.hasTimedOut == some true <;> rw [htime] at hfollows <;> cases hfollows

/-- If the run ended well, the rows of its iterations follow from those of their partitions, where
nothing but a fault raises the error flag. -/
def Settings.FollowsFaults {σ : Type} (store : σ → MemoryStore) (settings : Settings)
    (env : Environment (StateM σ)) (request : RunRequest) (s : σ) : Prop :=
  ∀ outcome, ((settings.analyze env request).run s).1 = .ok outcome →
    let after := store ((settings.analyze env request).run s).2
    List.Forall₂ (fun piece record =>
        record.FollowsFrom
          (after.listPartitions request.benchmark settings.label record.iteration) piece.faulty)
      (settings.history env request s).iterations
      (after.listIterations request.benchmark settings.label)

/-- Preparing and exploring go well, but the iteration has an error: in the first run because a
batch is aborted, in the second one because the store refuses a row. -/
theorem rows_follow_aborted :
    ¬ (Settings.default 1).FollowsFaults Prod.snd
        (Environment.aborting unchanged agreeing "task 1 panicked").storing
        { benchmark := "f" } (false, .empty) ∧
      ¬ (Settings.default 1).FollowsFaults Prod.snd
        ((Environment.delivering unchanged agreeing).storing.refusingRows (.database "injected"))
        { benchmark := "f" } (false, .empty) := by
  have haborted : (((Settings.default 1).analyze
      (Environment.aborting unchanged agreeing "task 1 panicked").storing
      { benchmark := "f" }).run (false, .empty)).1.toOption.map (·.run.result) =
      some (some .error) := by
    decide +kernel
  have hrefused : (((Settings.default 1).analyze
      ((Environment.delivering unchanged agreeing).storing.refusingRows (.database "injected"))
      { benchmark := "f" }).run (false, .empty)).1.toOption.map (·.run.result) =
      some (some .error) := by
    decide +kernel
  obtain ⟨outcome, hr, -⟩ := exists_ok_of_toOption haborted
  obtain ⟨outcome', hr', -⟩ := exists_ok_of_toOption hrefused
  refine ⟨fun follows => not_follows_of_error ?_ ?_ (follows outcome hr),
    fun follows => not_follows_of_error ?_ ?_ (follows outcome' hr')⟩
  all_goals decide +kernel

end Regression
