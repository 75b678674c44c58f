import Regression.Proofs.Run.Outcome
import Regression.Proofs.Run.Phases
import Regression.Proofs.Run.Reclassifying
import Regression.Proofs.Run.Termination
import Regression.Proofs.Store.Calls

/-!
# The times of a run

After a run that ended well the store lists one time for each stopwatch of the run, in the order in
which the stopwatches were first started.

* `every_stopwatch_is_listed`: what is listed after a run.
-/

namespace Regression

open History

/-! ## Times that are listed -/

theorem MemoryStore.listTimes_putAll {benchmark tool : String} {ws : List StoreWrite}
    (hws : ∀ w ∈ ws, w.PutsFor benchmark tool)
    (hnodup : ((ws.filterMap StoreWrite.time?).map TimeRecord.key).Nodup) :
    (empty.putAll ws).listTimes benchmark tool =
      (ws.filterMap StoreWrite.time?).mergeSort timeLe := by
  have hrows : putRows TimeRecord.key empty.times (ws.filterMap StoreWrite.time?) =
      ws.filterMap StoreWrite.time? := putRows_nil_of_nodup hnodup
  have howned : ∀ r ∈ ws.filterMap StoreWrite.time?, r.owner = (benchmark, tool) := by
    intro r hr
    obtain ⟨w, hw, htime⟩ := List.mem_filterMap.mp hr
    cases w <;> cases htime
    exact hws _ hw
  rw [putAll_eq hws, listTimes, hrows]
  congr 1
  exact List.filter_eq_self.mpr fun r hr => decide_eq_true (howned r hr)

namespace Stopwatches

variable {watches : Stopwatches} {benchmark tool : String} {now : Duration}

/-- Stopwatches with different labels have records with different keys. -/
theorem nodup_key_records (h : watches.labels.Nodup) :
    ((watches.records benchmark tool now).map TimeRecord.key).Nodup := by
  have hkeys : (watches.records benchmark tool now).map TimeRecord.key =
      watches.labels.map fun label => (benchmark, tool, label) := by
    rw [← map_label_records watches benchmark tool now, List.map_map]
    exact List.map_congr_left fun r hr =>
      congrArg (fun owner => (owner.1, owner.2, r.topic, r.task)) (owner_of_mem_records _ _ r hr)
  rw [hkeys]
  exact h.map fun _ _ hsame => congrArg (·.2.2) hsame

/-- As long as steps can be counted, records come in the order of their steps. -/
theorem mergeSort_records (h : watches.length < UInt32.size) :
    (watches.records benchmark tool now).mergeSort MemoryStore.timeLe =
      watches.records benchmark tool now := by
  have hsteps : ((watches.records benchmark tool now).map (·.step.toNat)).Pairwise (· < ·) := by
    rw [map_step_records h]
    exact List.pairwise_lt_range'
  refine List.mergeSort_of_pairwise ((List.pairwise_map.mp hsteps).imp fun hlt => ?_)
  exact MemoryStore.timeLe_iff.mpr (.inl (UInt32.lt_iff_toNat_lt.mpr hlt))

end Stopwatches

theorem ResultStore.Holds.listTimes {store : ResultStore} {m : MemoryStore} (h : store.Holds m)
    (benchmark tool : String) :
    ∃ kept : TimeRecord → TimeRecord, (kept = id ∨ kept = TimeRecord.settled) ∧
      store.listTimes benchmark tool = .ok ((m.listTimes benchmark tool).map kept) := by
  cases h with
  | memory => exact ⟨id, .inl rfl, by rw [List.map_id]; rfl⟩
  | relational htimed =>
    exact ⟨TimeRecord.settled, .inr rfl, RelationalStore.listTimes_ofMemory htimed benchmark tool⟩

/-! ## The stopwatches of a run -/

/-- The stopwatches of a run that ended well. -/
def Settings.stopwatches {σ : Type} (settings : Settings) (env : Environment (StateM σ))
    (request : RunRequest) (s : σ) : Stopwatches :=
  match Watchdog.start? (env.now.run s).1 settings.run.timeout with
  | none => []
  | some watchdog =>
    match (settings.observedRequest env request watchdog s).1.1 with
    | .ok (_, watches) => watches
    | .error _ => []

section

variable {σ : Type} {settings : Settings} {env : Environment (StateM σ)} {request : RunRequest}
  {s : σ} {outcome : RunOutcome}

/-- The stopwatches of a run have the labels that are read off its history. They were stopped, and
their times were written. -/
theorem Settings.stopwatches_spec (h : ((settings.analyze env request).run s).1 = .ok outcome) :
    let watches := settings.stopwatches env request s
    let history := settings.history env request s
    watches.labels = history.labels ∧ (∀ w ∈ watches, w.isRunning = false) ∧
      ∃ now, history.writes.filterMap StoreWrite.time? =
        watches.records request.benchmark settings.label now := by
  obtain ⟨watchdog, hw⟩ : ∃ watchdog, Watchdog.start? (env.now.run s).1 settings.run.timeout =
      some watchdog := ⟨_, Settings.start?_of_ok h⟩
  have hrun := settings.analyze_eq env request s
  rw [hw] at hrun
  simp only [Prod.mk.injEq] at hrun
  obtain ⟨⟨hresult, hhistory⟩, -⟩ := hrun
  have hshown := Run.shows_analyzeRequest_labels env (settings.context request watchdog) request
  have hobserved := hshown.run_eq (env.now.run s).2
  have hspec := (hshown.holds (env.now.run s).2).1
  have hends : (settings.observedRequest env request watchdog s).1.1 = _ :=
    congrArg (·.1.1) hobserved
  cases hrequest : (settings.observedRequest env request watchdog s).1.1 with
  | error e =>
    rw [h, hrequest] at hresult
    cases hresult
  | ok r =>
    have hwatches : settings.stopwatches env request s = r.2 := by
      rw [stopwatches, hw]
      dsimp only
      rw [hrequest]
    rw [hwatches, hhistory]
    exact hspec r.1 r.2 (hends.symm.trans hrequest)

end

/-- What is listed about the stopwatches of a run. -/
structure ListsStopwatches (h : History) (benchmark tool : String) (watches : Stopwatches)
    (times : List TimeRecord) : Prop where
  /-- The stopwatches are those of the run and of the phases of its iterations. -/
  labels : watches.labels = h.labels
  /-- No two of them have the same topic and task. -/
  distinct : watches.labels.Nodup
  /-- Each of them has one record, which a database may have settled. -/
  stored : ∃ kept : TimeRecord → TimeRecord, (kept = id ∨ kept = TimeRecord.settled) ∧
    times.Perm ((watches.records benchmark tool .zero).map kept)
  perm : (times.map fun r => (r.topic, r.task)).Perm watches.labels
  notMissing : ∀ r ∈ times, r.isMissing = false
  /-- As long as steps can be counted, the records come in the order in which the stopwatches were
  first started, with steps counted from 1. -/
  ordered : watches.length < UInt32.size →
    times.map (fun r => (r.topic, r.task)) = watches.labels ∧
      times.map (·.step.toNat) = List.range' 1 watches.length

/-- The records of stopwatches that were stopped, sorted and kept. -/
theorem Stopwatches.lists {h : History} {benchmark tool : String} {watches : Stopwatches}
    {now : Duration} {kept : TimeRecord → TimeRecord} (hlabels : watches.labels = h.labels)
    (hdistinct : watches.labels.Nodup) (hstopped : ∀ w ∈ watches, w.isRunning = false)
    (hkept : kept = id ∨ kept = TimeRecord.settled) :
    ListsStopwatches h benchmark tool watches
      (((watches.records benchmark tool now).mergeSort MemoryStore.timeLe).map kept) := by
  have hsame : watches.records benchmark tool now = watches.records benchmark tool .zero :=
    (records_of_stopped hstopped).1 .zero
  have hmissing : ∀ r ∈ watches.records benchmark tool now, r.isMissing = false :=
    (records_of_stopped hstopped).2
  have hperm := List.mergeSort_perm (watches.records benchmark tool now) MemoryStore.timeLe
  have hfields (r : TimeRecord) : ((kept r).topic, (kept r).task) = (r.topic, r.task) ∧
      (kept r).step = r.step ∧ (kept r).isMissing = r.isMissing := by
    rcases hkept with rfl | rfl <;> exact ⟨rfl, rfl, rfl⟩
  have hmap {β : Type} (field : TimeRecord → β) (hfield : ∀ r, field (kept r) = field r)
      (times : List TimeRecord) : (times.map kept).map field = times.map field := by
    rw [List.map_map]
    exact List.map_congr_left fun r _ => hfield r
  have hlabel := map_label_records watches benchmark tool now
  refine ⟨hlabels, hdistinct, ⟨kept, hkept, ?_⟩, ?_, ?_, fun hsmall => ?_⟩
  · rw [← hsame]
    exact hperm.map kept
  · rw [hmap _ fun r => (hfields r).1, ← hlabel]
    exact hperm.map _
  · intro r hr
    obtain ⟨r, hmem, rfl⟩ := List.mem_map.mp hr
    rw [(hfields r).2.2]
    exact hmissing r (hperm.mem_iff.mp hmem)
  · rw [mergeSort_records hsmall, hmap _ fun r => (hfields r).1, hlabel,
      hmap (·.step.toNat) fun r => congrArg UInt32.toNat (hfields r).2.1, map_step_records hsmall]
    exact ⟨rfl, rfl⟩

/-- After a run that ended well there is one time for each of its stopwatches: for the run itself,
its initialization and finalization, and for the phases of each iteration. -/
theorem every_stopwatch_is_listed {σ : Type} {store : σ → ResultStore} {settings : Settings}
    {env : Environment (StateM σ)} {request : RunRequest} {s : σ} {before : MemoryStore}
    {outcome : RunOutcome} (keeps : env.KeepsIn store) (holds : (store s).Holds before)
    (h : ((settings.analyze env request).run s).1 = .ok outcome) :
    ∃ times, (store ((settings.analyze env request).run s).2).listTimes request.benchmark
        settings.label = .ok times ∧
      ListsStopwatches (settings.history env request s) request.benchmark settings.label
        (settings.stopwatches env request s) times ∧
      (settings.history env request s).iterations.length = outcome.iterations.length := by
  obtain ⟨⟨watchdog, runs⟩, -⟩ := Settings.runs_history h
  obtain ⟨first, accounts, times, haccounts⟩ := runs.accounts
  obtain ⟨hlabels, hstopped, now, htimes⟩ := Settings.stopwatches_spec h
  have hlength : (settings.history env request s).iterations.length = outcome.iterations.length :=
    runs.pieces.length_eq
  have hdistinct : (settings.stopwatches env request s).labels.Nodup :=
    hlabels ▸ nodup_labels (hlength ▸ haccounts.length_iterations_lt)
  have hwritten : (Run.writesOf (settings.context request watchdog) first outcome.run accounts
      times).filterMap StoreWrite.time? =
        (settings.stopwatches env request s).records request.benchmark settings.label now := by
    rw [← htimes, haccounts.writes]
    rfl
  have hlisted := MemoryStore.listTimes_putAll (Run.putsFor_writesOf haccounts.first
    haccounts.owner haccounts.wellFormed haccounts.times)
    (hwritten ▸ Stopwatches.nodup_key_records hdistinct)
  rw [hwritten, ← haccounts.under_eq before, MemoryStore.listTimes_under] at hlisted
  obtain ⟨kept, hkept, hlist⟩ :=
    (keeps.holds settings request holds).listTimes request.benchmark settings.label
  refine ⟨_, hlist, ?_, hlength⟩
  have hlisted : (before.putAll (settings.history env request s).writes).listTimes
      request.benchmark settings.label = _ := hlisted
  rw [hlisted]
  exact Stopwatches.lists hlabels hdistinct hstopped hkept

/-! ## A rehearsal -/

/-- A run with two iterations, between which the function is put back. -/
theorem every_stopwatch_is_listed_rehearsal :
    ∃ (after : ResultStore) (watches : Stopwatches) (h : History) (times : List TimeRecord),
      after.listTimes "f" "CEGAR" = .ok times ∧ ListsStopwatches h "f" "CEGAR" watches times ∧
      h.labels = [("run", ""), ("run", "initialization"),
        ("iteration-1", ""), ("iteration-1", "instrumentation"),
        ("iteration-1", "symbolic-execution"), ("iteration-1", "classification"),
        ("iteration-1", "refinement"),
        ("iteration-2", ""), ("iteration-2", "instrumentation"),
        ("iteration-2", "symbolic-execution"), ("iteration-2", "classification"),
        ("iteration-2", "refinement"),
        ("run", "finalization")] := by
  have hrun : (((Settings.default 1).analyze Rehearsal.environment { benchmark := "f" }).run
      { replayingStage with store := .relational .empty }).1.toOption.map (·.refined) =
        some ["f"] := by
    decide +kernel
  obtain ⟨outcome, hr, -⟩ := exists_ok_of_toOption hrun
  obtain ⟨times, hlisted, hlists, -⟩ :=
    every_stopwatch_is_listed Rehearsal.environment_keepsIn ResultStore.Holds.relational_empty hr
  have hlabel : (Settings.default 1).label = "CEGAR" := by decide
  rw [hlabel] at hlisted hlists
  refine ⟨_, _, _, times, hlisted, hlists, ?_⟩
  decide +kernel

end Regression
