import Regression.Proofs.Run.Batching
import Regression.Proofs.Run.Refinement
import Regression.Proofs.Run.Validity
import Regression.Trace.Replay

/-!
# The size of batches does not matter

How many partitions are checked at once, and in which order, only decides when their verdicts are
stored. Calm runs with the same surroundings do the same otherwise: each of them does what the
surroundings do alone, with one partition after the other.

* `Settings.RunsCalmly.together`: a calm run does what its surroundings do alone.
* `batches_do_not_matter`: two calm runs.
-/

namespace Regression

/-! ## What can be seen -/

namespace History

theorem writes_visible (h : History) : h.visible.writes = h.writes.map StoreWrite.untimed := by
  rw [visible, writes, writes, List.filterMap_filterMap, List.map_filterMap]
  refine List.filterMap_congr fun e _ => ?_
  cases e with
  | wrote w result => cases result <;> rfl
  | _ => rfl

theorem expansions_visible (h : History) : h.visible.expansions = h.expansions := by
  rw [visible, expansions, expansions, List.filterMap_filterMap]
  refine List.filterMap_congr fun e _ => ?_
  cases e <;> rfl

end History

/-! ## One run -/

/-- A run begins in time, nothing comes too late, and the responder answers its queries. -/
structure Settings.RunsCalmly {σ : Type} (r : Responder) (settings : Settings)
    (env : Environment (StateM σ)) (request : RunRequest) (s : σ) : Prop where
  started : (Watchdog.start? (env.now.run s).1 settings.run.timeout).isSome
  calm : (settings.history env request s).IsCalm r

/-- What surroundings do alone, with one partition after the other. -/
def Surroundings.alone {τ : Type} (u : Surroundings τ) (r : Responder) (settings : Settings)
    (request : RunRequest) (t : τ) :
    (Except Failure (RunOutcome × Stopwatches) × History) × τ :=
  Run.ends (Run.analyzeRequest (u.environment r .inOrder).observed
    ((settings.context request
      { deadline := .zero, limit := settings.run.timeout }).batched 1 .zero) request) [] [] t

section

variable {σ τ : Type} {part : σ → τ} {u : Surroundings τ} {env : Environment (StateM σ)}
  {r : Responder} {settings : Settings} {request : RunRequest} {s : σ}

/-- A calm run does what its surroundings do alone. -/
theorem Settings.RunsCalmly.together (runs : settings.RunsCalmly r env request s)
    (answers : env.Moves part u.Answers) :
    ((settings.analyze env request).run s).1.map RunOutcome.untimed =
        ((u.alone r settings request (part s)).1.1.map (·.1)).map RunOutcome.untimed ∧
      Together r part [] (settings.history env request s)
        ((settings.analyze env request).run s).2 (u.alone r settings request (part s)).1.2
        (u.alone r settings request (part s)).2 := by
  obtain ⟨watchdog, hw⟩ := Option.isSome_iff_exists.mp runs.started
  have hrun := settings.analyze_eq env request s
  rw [hw] at hrun
  simp only [Prod.mk.injEq] at hrun
  obtain ⟨⟨hresult, hhistory⟩, hstate⟩ := hrun
  have hcalm := runs.calm
  rw [hhistory] at hcalm
  have hctx : (settings.context request watchdog).batched 1 .zero =
      (settings.context request
        { deadline := .zero, limit := settings.run.timeout }).batched 1 .zero := by
    rw [Watchdog.eq_of_start? hw]
    rfl
  have akin : env.observed.Akin (.calmly r (Together r part []))
      (settings.context request watchdog).deadline .zero
      (u.environment r .inOrder).observed := answers.akin r _ _ _
  have hrel := akin.analyzeRequest (answers.classifiesAlike r _ .zero _) request [] [] rfl
  have hstart : Together r part [] [] (env.now.run s).2 [] (part s) :=
    ⟨fun _ he => absurd he List.not_mem_nil, answers.now s, rfl, fun _ => .rfl⟩
  obtain ⟨hends, htogether⟩ := hrel.2.2 [] (env.now.run s).2 [] (part s) hstart hcalm
  rw [hctx] at hends htogether
  rw [hresult, hhistory, hstate]
  exact ⟨hends.map_eq, htogether⟩

end

/-! ## Two runs -/

/-- What two runs of a request have in common, times aside. -/
structure SameWork (h h' : History) (r r' : Except Failure RunOutcome) : Prop where
  /-- They have the same iterations, stop for the same reason and put the same units back, or fail
  alike. -/
  outcome : r.map RunOutcome.untimed = r'.map RunOutcome.untimed
  /-- Queries aside, they ask for the same, with the same answers. -/
  visible : h.visible = h'.visible
  /-- They write the same rows in the same order. -/
  writes : h.writes.map StoreWrite.untimed = h'.writes.map StoreWrite.untimed
  /-- Whatever a store held before, it holds the same in the end. -/
  stored (first : MemoryStore) :
    (first.putAll h.writes).untimed = (first.putAll h'.writes).untimed
  /-- They put back the same units in the same order. -/
  expansions : h.expansions = h'.expansions
  /-- They keep the same answers with their keys and queries, unless the store refuses a verdict,
  with which both of them fail. -/
  filed : h.any Event.refusesVerdict = false → h.filed.Perm h'.filed
  /-- In particular they do so if they end well. -/
  filed_of_ok : r.isOk → h.filed.Perm h'.filed

/-- A run that ends well was not refused a verdict. -/
theorem Surfaces.any_refusesVerdict {α : Type} {h : History} {r : Except Failure α}
    (surfaces : Surfaces h r) (ok : r.isOk) : h.any Event.refusesVerdict = false := by
  cases surfaces with
  | unrefused accepted =>
    refine List.any_eq_false.mpr fun e he hrefuses => ?_
    have haccepted := accepted e he
    cases e with
    | wrote w result =>
      cases w with
      | partition row =>
        cases result with
        | error =>
          have hindex : row.isClassified = false := by
            simpa [Event.isRefusal, StoreWrite.isIndexRow] using haccepted
          exact Bool.noConfusion (hindex.symm.trans hrefuses)
        | ok => cases hrefuses
      | _ => cases hrefuses
    | _ => cases hrefuses
  | refused => cases ok

/-- The store takes every row that does not contradict itself. -/
def Environment.TakesValidRows {σ : Type} (env : Environment (StateM σ)) : Prop :=
  ∀ w s, w.validate = .ok () → ((env.write w).run s).1 = .ok ()

/-- No row of a run contradicts itself. -/
theorem Environment.TakesValidRows.any_refusesVerdict {σ : Type} {env : Environment (StateM σ)}
    (takes : env.TakesValidRows) (settings : Settings) (request : RunRequest) (s : σ) :
    (settings.history env request s).any Event.refusesVerdict = false := by
  rcases settings.runs_or env request s with ⟨watchdog, runs⟩ | ⟨hnone, -⟩
  · refine List.any_eq_false.mpr fun e he hrefuses => ?_
    cases e with
    | wrote w result =>
      obtain ⟨s', hwrite⟩ := ((settings.shows_analyze env request).holds s).2 _ he
      have hsound : w.Sound := runs.sound _ he
      rw [takes w s' hsound.valid] at hwrite
      subst hwrite
      cases w <;> cases hrefuses
    | _ => cases hrefuses
  · rw [hnone]
    rfl

theorem SameWork.of_visible {h h' : History} {r r' : Except Failure RunOutcome}
    (outcome : r.map RunOutcome.untimed = r'.map RunOutcome.untimed)
    (visible : h.visible = h'.visible) (surfaces : Surfaces h r)
    (filed : h.any Event.refusesVerdict = false → h.filed.Perm h'.filed) :
    SameWork h h' r r' := by
  have hwrites : h.writes.map StoreWrite.untimed = h'.writes.map StoreWrite.untimed := by
    rw [← History.writes_visible, visible, History.writes_visible]
  refine ⟨outcome, visible, hwrites, fun first => ?_, ?_, filed, fun ok => ?_⟩
  · rw [MemoryStore.untimed_putAll, MemoryStore.untimed_putAll, hwrites]
  · rw [← History.expansions_visible, visible, History.expansions_visible]
  · exact filed (surfaces.any_refusesVerdict ok)

/-- As long as they are calm, runs with the same surroundings do the same, whatever the size of
their batches and in whatever order the partitions of a batch are checked. A store that takes every
valid row never refuses a verdict. -/
theorem batches_do_not_matter {σ σ' τ : Type} {part : σ → τ} {part' : σ' → τ} {u : Surroundings τ}
    {r : Responder} {env : Environment (StateM σ)} {env' : Environment (StateM σ')}
    (answers : env.Moves part u.Answers) (answers' : env'.Moves part' u.Answers)
    {settings : Settings} {size : UInt64} {request : RunRequest} {s : σ} {s' : σ'}
    (same : part s = part' s') (runs : settings.RunsCalmly r env request s)
    (runs' : (settings.batched size).RunsCalmly r env' request s') :
    SameWork (settings.history env request s) ((settings.batched size).history env' request s')
        ((settings.analyze env request).run s).1
        (((settings.batched size).analyze env' request).run s').1 ∧
      part ((settings.analyze env request).run s).2 =
        part' (((settings.batched size).analyze env' request).run s').2 ∧
      (env.TakesValidRows → (settings.history env request s).filed.Perm
        ((settings.batched size).history env' request s').filed) := by
  obtain ⟨hresult, htogether⟩ := runs.together answers
  obtain ⟨hresult', htogether'⟩ := runs'.together answers'
  have halone : u.alone r (settings.batched size) request (part' s') =
      u.alone r settings request (part s) := by
    rw [same]
    rfl
  rw [halone] at hresult' htogether'
  have hvisible := htogether.visible.trans htogether'.visible.symm
  have hsame (hno : (settings.history env request s).any Event.refusesVerdict = false) :
      (settings.history env request s).filed.Perm
        ((settings.batched size).history env' request s').filed := by
    have hno' : ((settings.batched size).history env' request s').any Event.refusesVerdict =
        false := by
      rw [← History.any_refusesVerdict_visible, ← hvisible, History.any_refusesVerdict_visible, hno]
    have hfiled := htogether.filed hno
    have hfiled' := htogether'.filed hno'
    rw [List.append_nil] at hfiled hfiled'
    exact hfiled.trans hfiled'.symm
  obtain ⟨watchdog, hw⟩ := Option.isSome_iff_exists.mp runs.started
  have hsurfaces := (Settings.runs_of_start hw request).surfaces
  refine ⟨.of_visible (hresult.trans hresult'.symm) hvisible hsurfaces hsame,
    htogether.state.trans htogether'.state.symm, fun takes => ?_⟩
  exact hsame (takes.any_refusesVerdict settings request s)

/-! ## A replay -/

/-- A replay and a store in memory, which surround a run. -/
def Replay.surroundings : Surroundings (Replay × MemoryStore) where
  inputExists _ := pure true
  prepare _ := pure (.ok ())
  start i := modifyGet fun s =>
    match s.1.start i with
    | .ok replay => (.ok (), replay, s.2)
    | .error fault => (.error (.analysis fault), s)
  next := modifyGet fun s =>
    match s.1.next with
    | .ok (p, replay) => (.ok p, replay, s.2)
    | .error fault => (.error (.analysis fault), s)
  summary := return (← get).1.summary
  expand unit := modifyGet fun s =>
    match s.1.expand unit.name with
    | .ok replay => (.ok (), replay, s.2)
    | .error fault => (.error (.analysis fault), s)
  write w := modifyGet fun s =>
    match s.2.write w with
    | .ok store => (.ok (), s.1, store)
    | .error e => (.error e, s)
  resetResults _ := pure (.ok ())
  appendResults _ := pure (.ok ())

theorem Replay.takesValidRows (r : Responder) (pick : PickOrder) :
    (surroundings.environment r pick).TakesValidRows := by
  intro w s hvalid
  have hwrite : s.2.write w.untimed = .ok (s.2.put w.untimed) := by
    rw [MemoryStore.write, w.validate_untimed, hvalid]
    rfl
  simp only [Surroundings.environment, surroundings, modifyGet, MonadStateOf.modifyGet,
    StateT.modifyGet, StateT.run]
  rw [hwrite]
  rfl

/-- Surroundings alone do not disturb a run. -/
theorem Surroundings.runsCalmly {τ : Type} (u : Surroundings τ) (r : Responder)
    (pick : PickOrder) {settings : Settings}
    (started : (Watchdog.start? .zero settings.run.timeout).isSome) (request : RunRequest) (t : τ) :
    settings.RunsCalmly r (u.environment r pick) request t where
  started := started
  calm e he := u.isCalm_of_canEmit
    (((settings.shows_analyze (u.environment r pick) request).holds t).2 e he)

/-- Everything is possible. -/
def possible : Responder where
  answer _ := .ok { status := .sat }
  keep _ _ _ := .ok ()

/-- A trace where two paths are undecided until the abstracted function is put back. -/
def undecidedFirst : Trace where
  entries :=
    [{ summary := [{ name := "f" }], partitions := [unchanged, { unchanged with index := 2 }] },
      { expanded := .ofList ["f"],
        partitions := [1, 2].map fun index =>
          { index, pc := .bool true, v1 := .concrete (.int 1), v2 := .concrete (.int 2) } }]

/-- The stage of the replay. -/
def undecided : Replay × MemoryStore := ({ trace := undecidedFirst }, .empty)

/-- Partitions are checked in their order. -/
def forwards : Environment (StateM (Replay × MemoryStore)) :=
  Replay.surroundings.environment possible .inOrder

/-- The last partition of a batch is checked first. -/
def backwards : Environment (StateM (Replay × MemoryStore)) :=
  Replay.surroundings.environment possible fun _ _ rest =>
    ⟨rest.length, Nat.lt_succ_self rest.length⟩

/-- Two partitions are checked one after the other, or as a batch with the second one first. -/
theorem batches_do_not_matter_replay :
    ∃ (h h' : History) (outcome outcome' : RunOutcome),
      SameWork h h' (.ok outcome) (.ok outcome') ∧ outcome.refined = ["f"] ∧
        outcome.iterations.length = 2 ∧ h.filed.Perm h'.filed ∧
          h.filed.map (·.1) ≠ h'.filed.map (·.1) := by
  have hruns : (((Settings.default 1).analyze forwards { benchmark := "f" }).run
      undecided).1.toOption.map (fun o => (o.refined, o.iterations.length)) = some (["f"], 2) ∧
      ((((Settings.default 1).batched 2).analyze backwards { benchmark := "f" }).run
        undecided).1.toOption.map (·.refined) = some ["f"] ∧
      ((Settings.default 1).history forwards { benchmark := "f" } undecided).filed.map (·.1) ≠
        (((Settings.default 1).batched 2).history backwards { benchmark := "f" }
          undecided).filed.map (·.1) := by
    decide +kernel
  have hforwards : (Settings.default 1).RunsCalmly possible forwards { benchmark := "f" } undecided :=
    Replay.surroundings.runsCalmly possible _ (by decide) _ _
  have hbackwards : ((Settings.default 1).batched 2).RunsCalmly possible backwards
      { benchmark := "f" } undecided :=
    Replay.surroundings.runsCalmly possible _ (by decide) _ _
  have answers : forwards.Moves id Replay.surroundings.Answers :=
    Replay.surroundings.environment_moves possible _
  have answers' : backwards.Moves id Replay.surroundings.Answers :=
    Replay.surroundings.environment_moves possible _
  obtain ⟨hsame, -, hperm⟩ := batches_do_not_matter answers answers' rfl hforwards hbackwards
  have hperm := hperm (Replay.takesValidRows possible _)
  obtain ⟨hfirst, hsecond, hfiled⟩ := hruns
  obtain ⟨outcome, hr, houtcome⟩ := exists_ok_of_toOption hfirst
  obtain ⟨outcome', hr', -⟩ := exists_ok_of_toOption hsecond
  rw [hr, hr'] at hsame
  obtain ⟨hrefined, hiterations⟩ := Prod.mk.inj houtcome
  exact ⟨_, _, outcome, outcome', hsame, hrefined, hiterations, hperm, hfiled⟩

end Regression
