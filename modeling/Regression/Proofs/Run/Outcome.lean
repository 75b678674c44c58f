import Regression.Proofs.Run.Results
import Regression.Proofs.Run.Stored
import Regression.Proofs.Run.Storing

/-!
# The store after a run

After a run that ended well the store holds its outcome and nothing else about it, whatever it held
before; what it holds about other runs stays.

* `store_is_outcome`: what is read from the store after a run.
-/

namespace Regression

open History

/-- The deadline of a run that begins in a state. -/
def Settings.deadline {σ : Type} (settings : Settings) (env : Environment (StateM σ)) (s : σ) :
    Duration :=
  (env.now.run s).1 + settings.run.timeout

/-- A run that ends well has a deadline. -/
theorem Settings.start?_of_ok {σ : Type} {settings : Settings} {env : Environment (StateM σ)}
    {request : RunRequest} {s : σ} {outcome : RunOutcome}
    (h : ((settings.analyze env request).run s).1 = .ok outcome) :
    Watchdog.start? (env.now.run s).1 settings.run.timeout =
      some { deadline := settings.deadline env s, limit := settings.run.timeout } := by
  have hrun := settings.analyze_eq env request s
  cases hw : Watchdog.start? (env.now.run s).1 settings.run.timeout with
  | none =>
    rw [hw] at hrun
    have hresult : ((settings.analyze env request).run s).1 = .error (.analysis .noDeadline) :=
      congrArg (·.1.1) hrun
    rw [h] at hresult
    cases hresult
  | some watchdog =>
    unfold Watchdog.start? at hw
    dsimp only at hw
    split at hw
    · cases hw
      rfl
    · cases hw

/-- A store holds the outcome of a run and nothing else about it; about other runs it holds what it
held before. -/
structure StoreIsOutcome (h : History) (benchmark tool : String) (outcome : RunOutcome)
    (before after : MemoryStore) : Prop where
  run : after.getRun benchmark tool = some outcome.run
  iterations : after.listIterations benchmark tool = outcome.iterations
  /-- The iterations are numbered from 1 without a gap. -/
  numbers : outcome.iterations.map (·.iteration.toNat) = List.range' 1 outcome.iterations.length
  /-- There is one row for each partition that was accepted, in the order of their indices. -/
  partitions : List.Forall₂ (fun piece record =>
      let rows := after.listPartitions benchmark tool record.iteration
      rows.map (·.partition) = piece.accepted.map (·.index) ∧
      (rows.map (·.partition)).Pairwise (· < ·) ∧
      (piece.accepted.length < UInt32.size →
        record.partitionCount.map (·.toNat) = some rows.length))
    h.iterations outcome.iterations
  /-- There are no rows of other iterations. -/
  noOthers : ∀ i, i ∉ outcome.iterations.map (·.iteration) →
    after.listPartitions benchmark tool i = []
  unchanged : ∀ benchmark' tool', (benchmark', tool') ≠ (benchmark, tool) →
    after.under benchmark' tool' = before.under benchmark' tool'

namespace Run.Runs.Accounts

variable {ctx : RunContext} {h : History} {outcome : RunOutcome} {first : RunRecord}
  {accounts : List Account} {times : List TimeRecord}

/-- As numbers without a bound, too, the numbers of the iterations have no gap. -/
theorem map_iteration_toNat (haccounts : Runs.Accounts ctx h outcome first accounts times) :
    outcome.iterations.map (·.iteration.toNat) = List.range' 1 outcome.iterations.length := by
  have hlt := haccounts.length_iterations_lt
  have hnumbers := congrArg (List.map UInt32.toNat) haccounts.map_iteration
  rw [List.map_map, numbersFrom, List.map_map] at hnumbers
  have hsame : ∀ i ∈ List.range' 1 outcome.iterations.length, (UInt32.ofNat i).toNat = i := by
    intro i hi
    rw [List.mem_range'_1] at hi
    exact UInt32.toNat_ofNat_of_lt' (by omega)
  exact (hnumbers.trans (List.map_congr_left hsame)).trans (List.map_id' _)

/-- What a run leaves is its outcome. -/
theorem storeIsOutcome {before after : MemoryStore}
    (haccounts : Runs.Accounts ctx h outcome first accounts times)
    (hleft : Left ctx outcome accounts before after) :
    StoreIsOutcome h ctx.benchmark ctx.tool outcome before after where
  run := hleft.getRun
  iterations := hleft.listIterations
  numbers := haccounts.map_iteration_toNat
  partitions := by
    refine haccounts.forall₂ hleft fun piece a hacc hrows => ?_
    dsimp only
    rw [hrows, hacc.map_rows]
    exact ⟨rfl, piece.accepted_ascending, hacc.partitionCount_eq⟩
  noOthers i hi := by
    refine hleft.listPartitions_of_not_mem i ?_
    rw [haccounts.numbers]
    rwa [haccounts.map_iteration, haccounts.records, List.length_map] at hi
  unchanged := hleft.others

end Run.Runs.Accounts

/-- Runs in environments that are alike leave the same about themselves, times aside, whatever their
stores held before. -/
theorem Environment.Alike.under_eq {σ σ' : Type} {store : σ → MemoryStore}
    {store' : σ' → MemoryStore} {settings : Settings} {env : Environment (StateM σ)}
    {env' : Environment (StateM σ')} {request : RunRequest} {s : σ} {s' : σ'}
    {outcome outcome' : RunOutcome} {R : σ → σ' → Prop} (keeps : env.Keeps store)
    (h : ((settings.analyze env request).run s).1 = .ok outcome) (keeps' : env'.Keeps store')
    (h' : ((settings.analyze env' request).run s').1 = .ok outcome')
    (alike : env.Alike (.ofStates R) (settings.deadline env s) (settings.deadline env' s') env')
    (hR : R s s') :
    ((store ((settings.analyze env request).run s).2).under request.benchmark
        settings.label).untimed =
      ((store' ((settings.analyze env' request).run s').2).under request.benchmark
        settings.label).untimed ∧
      outcome.untimed = outcome'.untimed := by
  obtain ⟨watchdog, first, accounts, times, haccounts, -⟩ := Settings.left keeps h
  obtain ⟨watchdog', first', accounts', times', haccounts', -⟩ := Settings.left keeps' h'
  obtain ⟨houtcome, -, hwrites⟩ := Settings.rel_analyze (Settings.start?_of_ok h)
    (Settings.start?_of_ok h') alike.observed request ⟨hR, rfl⟩
  rw [haccounts.writes, haccounts'.writes, List.map_cons, List.map_cons] at hwrites
  have htail := (List.cons.inj hwrites).2
  have hunder := haccounts.under_eq (store s)
  have hunder' := haccounts'.under_eq (store' s')
  rw [Settings.store_eq keeps, Settings.store_eq keeps']
  refine ⟨?_, ?_⟩
  · refine (congrArg MemoryStore.untimed hunder).trans
      (Eq.trans ?_ (congrArg MemoryStore.untimed hunder').symm)
    rw [MemoryStore.untimed_putAll, MemoryStore.untimed_putAll, htail]
  · rw [h, h'] at houtcome
    exact Except.ok.inj houtcome

/-- After a run that ended well the store holds its outcome and nothing else about it. This does not
depend on what it held before: runs in environments that are alike leave the same, times aside. -/
theorem store_is_outcome {σ : Type} {store : σ → MemoryStore} {settings : Settings}
    {env : Environment (StateM σ)} {request : RunRequest} {s : σ} {outcome : RunOutcome}
    (keeps : env.Keeps store) (h : ((settings.analyze env request).run s).1 = .ok outcome) :
    StoreIsOutcome (settings.history env request s) request.benchmark settings.label outcome
        (store s) (store ((settings.analyze env request).run s).2) ∧
      ∀ (σ' : Type) (store' : σ' → MemoryStore) (env' : Environment (StateM σ')) (s' : σ')
        (outcome' : RunOutcome) (R : σ → σ' → Prop), env'.Keeps store' →
        ((settings.analyze env' request).run s').1 = .ok outcome' →
        env.Alike (.ofStates R) (settings.deadline env s) (settings.deadline env' s') env' →
        R s s' →
        ((store ((settings.analyze env request).run s).2).under request.benchmark
            settings.label).untimed =
          ((store' ((settings.analyze env' request).run s').2).under request.benchmark
            settings.label).untimed ∧
          outcome.untimed = outcome'.untimed := by
  obtain ⟨watchdog, first, accounts, times, haccounts, hleft⟩ := Settings.left keeps h
  refine ⟨haccounts.storeIsOutcome hleft, ?_⟩
  intro σ' store' env' s' outcome' R keeps' h' alike hR
  exact alike.under_eq keeps h keeps' h' hR

/-! ## Two runs of one program -/

/-- The answers do not depend on the clock. -/
theorem Environment.delivering_alike (p : Partition) (status : QueryKind → Status)
    (d d' now : Duration) : (Environment.delivering p status).Alike (.ofStates Eq) d d'
      { Environment.delivering p status with now := pure now } where
  now := by
    rintro s _ rfl
    exact ⟨trivial, rfl⟩
  today := Coupling.ofStates_refl (fun _ => trivial) _
  inputExists _ := Coupling.ofStates_refl (fun _ => rfl) _
  prepare _ := Coupling.ofStates_refl (fun _ => rfl) _
  start _ := Coupling.ofStates_refl (fun _ => rfl) _
  next := Coupling.ofStates_refl (fun _ => rfl) _
  summary := Coupling.ofStates_refl (fun _ => rfl) _
  expand _ := Coupling.ofStates_refl (fun _ => rfl) _
  isExpired := Coupling.ofStates_refl (fun _ => rfl) _
  openBatch := Coupling.ofStates_refl (fun _ => rfl) _
  closeBatch := Coupling.ofStates_refl (fun _ => rfl) _
  desk :=
    { now := Coupling.ofStates_refl (fun _ => trivial) _
      isCancelled := Coupling.ofStates_refl (fun _ => rfl) _
      ask := fun _ => Coupling.ofStates_refl (fun _ => rfl) _
      record := fun _ _ _ => Coupling.ofStates_refl (fun _ => rfl) _ }
  write _ := Coupling.ofStates_refl (fun _ => rfl) _
  resetResults _ := Coupling.ofStates_refl (fun _ => rfl) _
  appendResults _ _ _ := Coupling.ofStates_refl (fun _ => rfl) _

/-- What earlier runs left: rows of the same run, and of another one. -/
def leftBefore : MemoryStore where
  runs := [{ benchmark := "f", tool := "CEGAR", startedAt := default },
    { benchmark := "g", tool := "CEGAR", startedAt := default }]
  iterations := [{ benchmark := "f", tool := "CEGAR", iteration := 7 }]
  partitions := [{ benchmark := "f", tool := "CEGAR", iteration := 1, partition := 9 },
    { benchmark := "g", tool := "CEGAR", iteration := 7, partition := 3 }]

/-- A second run, at another time, leaves what the first one leaves in an empty store. -/
theorem store_is_outcome_unchanged :
    ∃ (outcome outcome' : RunOutcome) (after after' : MemoryStore),
      StoreIsOutcome ((Settings.default 1).history
        (Environment.delivering unchanged agreeing).storing { benchmark := "f" }
        (false, leftBefore)) "f" "CEGAR" outcome leftBefore after ∧
      (after.under "f" "CEGAR").untimed = (after'.under "f" "CEGAR").untimed ∧
      outcome.untimed = outcome'.untimed := by
  have hruns : (((Settings.default 1).analyze (Environment.delivering unchanged agreeing).storing
        { benchmark := "f" }).run (false, leftBefore)).1.toOption.isSome ∧
      (((Settings.default 1).analyze
        (Environment.storing { Environment.delivering unchanged agreeing with
          now := pure (.ofSeconds 5) }) { benchmark := "f" }).run
        (false, .empty)).1.toOption.isSome := by
    decide +kernel
  cases hr : (((Settings.default 1).analyze (Environment.delivering unchanged agreeing).storing
      { benchmark := "f" }).run (false, leftBefore)).1 with
  | error e => simp [hr, Except.toOption] at hruns
  | ok outcome =>
    cases hr' : (((Settings.default 1).analyze
        (Environment.storing { Environment.delivering unchanged agreeing with
          now := pure (.ofSeconds 5) }) { benchmark := "f" }).run (false, .empty)).1 with
    | error e => simp [hr', Except.toOption] at hruns
    | ok outcome' =>
      obtain ⟨hstore, hsame⟩ := store_is_outcome (Environment.storing_keeps _) hr
      obtain ⟨hunder, houtcome⟩ := hsame _ _ _ _ _ _ (Environment.storing_keeps _) hr'
        (Environment.delivering_alike _ _ _ _ _).storing rfl
      exact ⟨outcome, outcome', _, _, hstore, hunder, houtcome⟩

end Regression
