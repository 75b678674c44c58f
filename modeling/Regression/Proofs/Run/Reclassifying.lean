import Regression.Proofs.Oracle.Classifying
import Regression.Proofs.Run.Expiry
import Regression.Proofs.Run.Replays
import Regression.Proofs.Store.Relational
import Regression.Proofs.Store.Validity

/-!
# Rows that can be classified again

A partition is classified from its verdict, and its row keeps what the verdict says. The facts of
the row are those of the verdict, so that classifying them comes to the result that is kept. This
holds in stores of both kinds, and whatever the solver does.

* `Verdict.classify_record`: a row that is classified again.
* `Environment.KeepsIn.holds`: the store after a run, of either kind.
* `rows_reclassify`: every row that is listed after a run.
-/

namespace Regression

/-! ## Verdicts and their rows -/

namespace PartitionRecord

/-- The row can be classified again, and this comes to its result. -/
def Reclassifies (r : PartitionRecord) : Prop :=
  ∃ c, r.result = some c ∧ (PartitionFacts.ofRecord r).classify = .ok c

/-- The facts of a row do not depend on how long it took. -/
theorem Reclassifies.settled {r : PartitionRecord} (h : r.Reclassifies) :
    r.settled.Reclassifies :=
  h

theorem IsIndexOnly.settled {r : PartitionRecord} (h : r.IsIndexOnly) : r.settled.IsIndexOnly := by
  unfold IsIndexOnly at h
  rw [h]
  rfl

end PartitionRecord

namespace Verdict

variable {v : Verdict}

/-- A failure is told by a text that is not blank. -/
def Tells (v : Verdict) : Prop := ∀ text ∈ v.error, Text.isBlankText text = false

/-- The row of a verdict that can be classified keeps its facts. -/
theorem ofRecord_record {c : Classification} (htells : v.Tells) (h : v.classify = .ok c)
    (benchmark tool : String) (iteration : UInt32) :
    PartitionFacts.ofRecord (v.record benchmark tool iteration) = .ofVerdict v := by
  have hresult : v.result = (c, v.error) := by
    unfold result
    rw [h]
  have herrors : (v.record benchmark tool iteration).errors = v.error := by
    show v.result.2 = v.error
    rw [hresult]
  have herror : hasText v.error = v.isError := by
    unfold isError
    cases htext : v.error with
    | none => rfl
    | some text => exact hasText_some (htells text htext)
  have hfacts : PartitionFacts.ofRecord (v.record benchmark tool iteration) =
      { PartitionFacts.ofVerdict v with
        isError := hasText (v.record benchmark tool iteration).errors } := rfl
  rw [hfacts, herrors, herror]
  rfl

/-- A verdict that lacks an answer is not about a path that is not taken. -/
theorem pcStatus_ne_unsat {missing : Precondition} (h : v.classify = .error missing) :
    v.pcStatus ≠ some .unsat := by
  intro hpc
  rw [classify_eq_ok_unreachable.mpr hpc] at h
  cases h

/-- The row of a verdict is classified again as it was. -/
theorem classify_record (htells : v.Tells) (benchmark tool : String) (iteration : UInt32) :
    (PartitionFacts.ofRecord (v.record benchmark tool iteration)).classify = .ok v.result.1 := by
  cases h : v.classify with
  | ok c =>
    have hresult : v.result.1 = c := by
      unfold result
      rw [h]
    rw [ofRecord_record htells h, hresult]
    exact h
  | error missing =>
    have hresult : v.result = (.error, some (Failure.precondition missing).message) := by
      unfold result
      rw [h]
    have herror : (PartitionFacts.ofRecord (v.record benchmark tool iteration)).isError = true := by
      show hasText v.result.2 = true
      rw [hresult]
      exact hasText_some (Failure.isBlankText_message _)
    have hpc : (PartitionFacts.ofRecord (v.record benchmark tool iteration)).pcStatus ≠
        some .unsat := pcStatus_ne_unsat h
    rw [hresult]
    unfold PartitionFacts.classify
    rw [if_neg (by exact Bool.false_ne_true), if_neg (by exact Bool.false_ne_true), if_neg hpc,
      if_pos herror]

end Verdict

/-- Whatever the desk does, a failure is told. -/
theorem Oracle.Checks.tells {timeoutMs : UInt64} {iteration : UInt32} {p : Partition} {es : History}
    {v : Verdict} (checks : Checks timeoutMs iteration p es v) : v.Tells := by
  obtain ⟨statuses, failure, runtime, -, rfl⟩ := checks
  intro text htext
  obtain ⟨e, -, rfl⟩ := Option.map_eq_some_iff.mp htext
  exact e.isBlankText_message

namespace Run

variable {ctx : RunContext}

/-- The rows of an iteration are those of partitions that were not classified, or they can be
classified again. -/
theorem Accounted.reclassifies {piece : History} {a : Account} (hacc : Accounted ctx piece a) :
    ∀ r ∈ a.rows ctx, r.IsIndexOnly ∨ r.Reclassifies := by
  intro r hr
  rcases List.mem_append.mp hr with hr | hr
  · obtain ⟨j, hj, rfl⟩ := List.mem_map.mp hr
    obtain ⟨es, -, checks⟩ := (hacc.analyzed.each j hj).checks
    exact .inr ⟨j.2.result.1, rfl, j.2.classify_record checks.tells _ _ _⟩
  · exact .inl (a.isIndexOnly_of_mem r hr).1

namespace Runs.Accounts

variable {h : History} {outcome : RunOutcome} {first : RunRecord} {accounts : List Account}
  {times : List TimeRecord} (haccounts : Runs.Accounts ctx h outcome first accounts times)

include haccounts

theorem exists_accounted : ∀ a ∈ accounts, ∃ piece, Accounted ctx piece a := by
  have hpieces : List.Forall₂ (fun a piece => (∃ piece, Accounted ctx piece a) ∧
      Accounted ctx piece a) accounts h.iterations :=
    haccounts.pieces.flip.imp fun a piece hacc => ⟨⟨piece, hacc⟩, hacc⟩
  exact ((List.forall₂_and_left _ _).mp hpieces).1

/-- Whatever number is asked for, the rows of an iteration can be classified again. -/
theorem reclassify {before after : MemoryStore} (hleft : Left ctx outcome accounts before after)
    (i : UInt32) : ∀ r ∈ after.listPartitions ctx.benchmark ctx.tool i,
      r.IsIndexOnly ∨ r.Reclassifies := by
  by_cases hi : i ∈ accounts.map (·.number)
  · obtain ⟨a, ha, rfl⟩ := List.mem_map.mp hi
    obtain ⟨piece, hacc⟩ := haccounts.exists_accounted a ha
    rw [hleft.listPartitions a ha]
    exact hacc.reclassifies
  · rw [hleft.listPartitions_of_not_mem i hi]
    intro r hr
    cases hr

end Runs.Accounts

end Run

/-! ## Stores of both kinds -/

section

variable {σ : Type} {store : σ → ResultStore}

/-- A write that succeeds goes to a store, and no other event changes it. -/
def ResultStore.Steps (e : Event) (before after : ResultStore) : Prop :=
  match e.written? with
  | some w => before.write w = .ok after
  | none => after = before

/-- Writes go to a store of either kind, and nothing else changes it. -/
def Environment.KeepsIn (env : Environment (StateM σ)) (store : σ → ResultStore) : Prop :=
  env.Moves store ResultStore.Steps

/-- After a run a store holds what it held before, and what was written. -/
theorem Environment.KeepsIn.holds {env : Environment (StateM σ)} (keeps : env.KeepsIn store)
    (settings : Settings) (request : RunRequest) {s : σ} {before : MemoryStore}
    (h : (store s).Holds before) :
    (store ((settings.analyze env request).run s).2).Holds
      (before.putAll (settings.history env request s).writes) := by
  refine keeps.kept (I := fun hist held => held.Holds (before.putAll (History.writes hist))) ?_
    settings request h
  intro hist e held after hholds hafter
  rw [History.writes_append, MemoryStore.putAll_append]
  have hone : History.writes [e] = e.written?.toList := by
    rw [History.writes, List.filterMap_cons]
    cases e.written? <;> rfl
  rw [hone]
  unfold ResultStore.Steps at hafter
  cases hwritten : e.written? with
  | none =>
    rw [hwritten] at hafter
    have hafter : after = held := hafter
    rw [hafter]
    exact hholds
  | some w =>
    rw [hwritten] at hafter
    exact (hholds.write hafter).2

end

theorem ResultStore.Holds.listPartitions {store : ResultStore} {m : MemoryStore}
    (h : store.Holds m) (benchmark tool : String) (iteration : UInt32) :
    ∃ rows, store.listPartitions benchmark tool iteration = .ok rows ∧
      (rows = m.listPartitions benchmark tool iteration ∨
        rows = (m.listPartitions benchmark tool iteration).map PartitionRecord.settled) := by
  cases h with
  | memory => exact ⟨_, rfl, .inl rfl⟩
  | relational =>
    exact ⟨_, RelationalStore.listPartitions_ofMemory m benchmark tool iteration, .inr rfl⟩

/-- Every row that is listed after a run that ended well is that of a partition that was not
classified, or it can be classified again, which comes to its result. -/
theorem rows_reclassify {σ : Type} {store : σ → ResultStore} {settings : Settings}
    {env : Environment (StateM σ)} {request : RunRequest} {s : σ} {before : MemoryStore}
    {outcome : RunOutcome} (keeps : env.KeepsIn store) (holds : (store s).Holds before)
    (h : ((settings.analyze env request).run s).1 = .ok outcome) (iteration : UInt32) :
    ∃ rows, (store ((settings.analyze env request).run s).2).listPartitions request.benchmark
        settings.label iteration = .ok rows ∧
      ∀ r ∈ rows, r.IsIndexOnly ∨ r.Reclassifies := by
  obtain ⟨⟨watchdog, runs⟩, -⟩ := Settings.runs_history h
  obtain ⟨first, accounts, times, haccounts⟩ := runs.accounts
  have hrows : ∀ r ∈ (before.putAll (settings.history env request s).writes).listPartitions
      request.benchmark settings.label iteration, r.IsIndexOnly ∨ r.Reclassifies :=
    haccounts.reclassify (haccounts.left before) iteration
  obtain ⟨rows, hlisted, hsame | hsettled⟩ :=
    (keeps.holds settings request holds).listPartitions request.benchmark settings.label iteration
  · exact ⟨rows, hlisted, hsame ▸ hrows⟩
  · refine ⟨rows, hlisted, ?_⟩
    rw [hsettled]
    intro r' hr'
    obtain ⟨r, hr, rfl⟩ := List.mem_map.mp hr'
    exact (hrows r hr).imp PartitionRecord.IsIndexOnly.settled PartitionRecord.Reclassifies.settled

/-! ## Rehearsals -/

/-- Rehearsals keep what is written in their store, whatever faults are planned. -/
theorem Rehearsal.environment_keepsIn : environment.KeepsIn Stage.store where
  now _ := rfl
  today _ := rfl
  openBatch _ := rfl
  deskNow _ _ := rfl
  inputExists _ _ := rfl
  prepare d i s :=
    leaves_perform Stage.store (fun _ _ => rfl) (fun _ => rfl) d .prepare i 0
      { s with prepared := i }
  start d i s := by
    refine leaves_perform Stage.store (fun _ _ => rfl) (fun s => ?_) d .start i 0
      { s with started := i, delivered := 0 }
    simp only [modifyGet, MonadStateOf.modifyGet, StateT.modifyGet, StateT.run]
    cases s.replay.start i with
    | error fault => rfl
    | ok replay => rfl
  next d s := by
    refine leaves_perform Stage.store (fun _ _ => rfl) (fun s => ?_) d .next s.started s.delivered s
    simp only [modifyGet, MonadStateOf.modifyGet, StateT.modifyGet, StateT.run]
    cases s.replay.next with
    | error fault => rfl
    | ok r => rfl
  summary _ := rfl
  expand d unit s := by
    refine leaves_perform Stage.store (fun _ _ => rfl) (fun s => ?_) d .expand s.prepared 0 s
    simp only [modifyGet, MonadStateOf.modifyGet, StateT.modifyGet, StateT.run]
    cases s.forgetsExpansions with
    | true => rfl
    | false =>
      cases s.replay.expand unit.name with
      | error fault => rfl
      | ok replay => rfl
  isExpired _ _ := rfl
  closeBatch _ _ := rfl
  isCancelled _ _ := rfl
  ask d q := Leaves.changes (leaves_awaitAnswer Stage.store (fun _ _ => rfl) d q) fun _ _ => rfl
  record d key q answer :=
    (leaves_record Stage.store (fun _ _ => rfl) (fun _ _ => rfl) _).changes fun _ _ => rfl
  write w s := by
    show ResultStore.Steps (.wrote w ((write w).run s).1) s.store ((write w).run s).2.store
    simp only [write, modifyGet, MonadStateOf.modifyGet, StateT.modifyGet, StateT.run]
    split
    · exact rfl
    · cases hwrite : s.store.write w with
      | error e => exact rfl
      | ok store => exact hwrite
  resetResults path :=
    (leaves_onFiles Stage.store (fun _ _ => rfl) (.resetResults path)).changes fun _ _ => rfl
  appendResults path text :=
    (leaves_onFiles Stage.store (fun _ _ => rfl) (.appendResults path text)).changes fun _ _ => rfl

/-- A stage with a relational store, where the solver fails when it is asked whether the results
differ. -/
def failingStage : Rehearsal.Stage where
  replay := { trace := { entries := [{ partitions := [unchanged] }] } }
  solver := { scripted := { rules := [({ kind := some .neq }, .fail "")] } }
  store := .relational .empty

/-- The run is an error, and so is its only partition when it is classified again. -/
theorem rows_reclassify_failing :
    ∃ (outcome : RunOutcome) (after : ResultStore) (rows : List PartitionRecord),
      outcome.classification = .error ∧ after.listPartitions "f" "CEGAR" 1 = .ok rows ∧
        ∀ r ∈ rows, r.IsIndexOnly ∨ r.Reclassifies := by
  have hrun : (((Settings.default 1).analyze Rehearsal.environment { benchmark := "f" }).run
      failingStage).1.toOption.map (·.classification) = some .error := by
    decide +kernel
  have hempty : failingStage.store.Holds .empty := ResultStore.Holds.relational_empty
  have hlabel : (Settings.default 1).label = "CEGAR" := by decide
  obtain ⟨outcome, hr, herror⟩ := exists_ok_of_toOption hrun
  obtain ⟨rows, hlisted, heach⟩ := rows_reclassify Rehearsal.environment_keepsIn hempty hr 1
  rw [hlabel] at hlisted
  exact ⟨outcome, _, rows, herror, hlisted, heach⟩

end Regression
