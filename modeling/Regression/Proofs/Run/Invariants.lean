import Regression.Proofs.Run.Coupling
import Regression.Proofs.Run.Whole

/-!
# What a run keeps

What holds of a history and a state, and is kept whenever something is asked of the environment,
holds at the end of a run. The same goes for two runs and a relation between their histories and
states, which are coupled by what both ask.

* `Settings.rel_analyze`: a relation that is kept by two environments is kept by runs in them.
* `Settings.invariant_analyze`: what an environment keeps is kept by a run.
* `Environment.Moves.kept`: what each event keeps is kept by a run.
* `Environment.Alike.observed`: environments that are alike have the same writes made, times aside.
* `Settings.store_eq`: a store after a run is the store before it with the writes of the run.
-/

namespace Regression

/-! ## Couplings of states -/

namespace Coupling

variable {σ σ' α β : Type}

/-- Computations are related if they keep the states related. -/
def ofStates (R : σ → σ' → Prop) : Coupling (StateM σ) (StateM σ') where
  Rel Q x y := ∀ s s', R s s' → Q (x.run s).1 (y.run s').1 ∧ R (x.run s).2 (y.run s').2
  pure h _ _ hR := ⟨h, hR⟩
  bind hx hf s s' hR := by
    obtain ⟨hQ, hR'⟩ := hx s s' hR
    exact hf _ _ hQ _ _ hR'

theorem ofStates_refl {Q : α → α → Prop} (hQ : ∀ a, Q a a) (x : StateM σ α) :
    (ofStates Eq).Rel Q x x := by
  rintro s _ rfl
  exact ⟨hQ _, rfl⟩

/-- Observed computations are related if they keep the histories and states related. -/
def observing (R : History → σ → History → σ' → Prop) :
    Coupling (StateT History (StateM σ)) (StateT History (StateM σ')) where
  Rel Q x y := ∀ h s h' s', R h s h' s' →
    Q ((x.run h).run s).1.1 ((y.run h').run s').1.1 ∧
      R ((x.run h).run s).1.2 ((x.run h).run s).2 ((y.run h').run s').1.2 ((y.run h').run s').2
  pure h _ _ _ _ hR := ⟨h, hR⟩
  bind hx hf h s h' s' hR := by
    obtain ⟨hQ, hR'⟩ := hx h s h' s' hR
    exact hf _ _ hQ _ _ _ _ hR'

variable {R : History → σ → History → σ' → Prop} {Q : α → β → Prop} {x : StateM σ α}
  {y : StateM σ' β}

theorem observing_silent
    (h : ∀ hist s hist' s', R hist s hist' s' →
      Q (x.run s).1 (y.run s').1 ∧ R hist (x.run s).2 hist' (y.run s').2) :
    (observing R).Rel Q (StateT.lift x : StateT History (StateM σ) α) (StateT.lift y) :=
  h

theorem observing_noting {event : α → Event} {event' : β → Event}
    (h : ∀ hist s hist' s', R hist s hist' s' → Q (x.run s).1 (y.run s').1 ∧
      R (hist ++ [event (x.run s).1]) (x.run s).2 (hist' ++ [event' (y.run s').1]) (y.run s').2) :
    (observing R).Rel Q (noting event x) (noting event' y) :=
  h

/-- Observed computations are related to any other if they keep what holds of the history and the
state, and if their results are possible. -/
def keeping (I : History → σ → Prop) :
    Coupling (StateT History (StateM σ)) (StateT History (StateM σ)) where
  Rel Q x _ := ∀ h s, I h s →
    (∃ b, Q ((x.run h).run s).1.1 b) ∧ I ((x.run h).run s).1.2 ((x.run h).run s).2
  pure h _ _ hI := ⟨⟨_, h⟩, hI⟩
  bind hx hf h s hI := by
    obtain ⟨⟨b, hQ⟩, hI'⟩ := hx h s hI
    exact hf _ b hQ _ _ hI'

variable {I : History → σ → Prop} {Q' : α → α → Prop} {y' : StateT History (StateM σ) α}

theorem keeping_silent (hQ : ∀ a, Q' a a) (h : ∀ hist s, I hist s → I hist (x.run s).2) :
    (keeping I).Rel Q' (StateT.lift x) y' :=
  fun hist s hI => ⟨⟨_, hQ _⟩, h hist s hI⟩

theorem keeping_noting {event : α → Event}
    (h : ∀ hist s, I hist s → I (hist ++ [event (x.run s).1]) (x.run s).2) :
    (keeping I).Rel Eq (noting event x) y' :=
  fun hist s hI => ⟨⟨_, rfl⟩, h hist s hI⟩

end Coupling

/-! ## Runs -/

/-- A watchdog that was just started differs from others with its limit in the deadline only. -/
theorem Watchdog.eq_of_start? {now limit : Duration} {watchdog : Watchdog}
    (h : Watchdog.start? now limit = some watchdog) :
    watchdog = { deadline := watchdog.deadline, limit } := by
  unfold Watchdog.start? at h
  dsimp only at h
  split at h
  · cases h
    rfl
  · cases h

/-- The context of a run that is due at another time. -/
theorem Settings.context_due (settings : Settings) (request : RunRequest)
    {now now' : Duration} {watchdog watchdog' : Watchdog}
    (h : Watchdog.start? now settings.run.timeout = some watchdog)
    (h' : Watchdog.start? now' settings.run.timeout = some watchdog') :
    settings.context request watchdog' =
      (settings.context request watchdog).due watchdog'.deadline := by
  rw [Watchdog.eq_of_start? h, Watchdog.eq_of_start? h']
  rfl

/-- The request as it is run from the first clock reading on, observed. -/
def Settings.observedRequest {σ : Type} (settings : Settings) (env : Environment (StateM σ))
    (request : RunRequest) (watchdog : Watchdog) (s : σ) :
    (Except Failure (RunOutcome × Stopwatches) × History) × σ :=
  (((Run.analyzeRequest env.observed (settings.context request watchdog) request).run
    []).run.run []).run (env.now.run s).2

/-- A run reads the clock first, which is not noted. It ends there if it is without a deadline. -/
theorem Settings.analyze_eq {σ : Type} (settings : Settings) (env : Environment (StateM σ))
    (request : RunRequest) (s : σ) :
    ((((settings.analyze env request).run s).1, settings.history env request s),
        ((settings.analyze env request).run s).2) =
      match Watchdog.start? (env.now.run s).1 settings.run.timeout with
      | none => ((.error (.analysis .noDeadline), []), (env.now.run s).2)
      | some watchdog =>
        let r := settings.observedRequest env request watchdog s
        ((r.1.1.map (·.1), r.1.2), r.2) := by
  rw [← settings.run_observed env request s]
  have hrun : ((settings.analyze env.observed request).run []).run s =
      ((match Watchdog.start? (env.now.run s).1 settings.run.timeout with
        | none => pure (.error (.analysis .noDeadline))
        | some watchdog => do
          return (← (Run.analyzeRequest env.observed (settings.context request watchdog)
            request).run [] |>.run).map (·.1) : StateT History (StateM σ)
              (Except Failure RunOutcome)).run []).run (env.now.run s).2 := rfl
  rw [hrun]
  cases Watchdog.start? (env.now.run s).1 settings.run.timeout with
  | none => rfl
  | some watchdog => rfl

/-- A run with a deadline is related to its history. -/
theorem Settings.runs_of_start {σ : Type} {settings : Settings} {env : Environment (StateM σ)}
    {s : σ} {watchdog : Watchdog}
    (h : Watchdog.start? (env.now.run s).1 settings.run.timeout = some watchdog)
    (request : RunRequest) :
    Run.Runs (settings.context request watchdog) request (settings.history env request s)
      ((settings.analyze env request).run s).1 := by
  have hrun := settings.analyze_eq env request s
  rw [h] at hrun
  simp only [Prod.mk.injEq] at hrun
  obtain ⟨⟨hresult, hhistory⟩, -⟩ := hrun
  obtain ⟨es, hobserved, -, runs⟩ := Run.shows_analyzeRequest (w := []) env
    (settings.context request watchdog) request [] (env.now.run s).2
  rw [hresult, hhistory, observedRequest, hobserved]
  exact runs

/-- Runs that are not without a deadline come to the same outcome, times aside, if what they ask
keeps histories and states related. -/
theorem Settings.rel_analyze {σ σ' : Type} {R : History → σ → History → σ' → Prop}
    {settings : Settings} {env : Environment (StateM σ)} {env' : Environment (StateM σ')}
    {s : σ} {s' : σ'} {watchdog watchdog' : Watchdog}
    (hw : Watchdog.start? (env.now.run s).1 settings.run.timeout = some watchdog)
    (hw' : Watchdog.start? (env'.now.run s').1 settings.run.timeout = some watchdog')
    (alike : env.observed.Alike (.observing R) watchdog.deadline watchdog'.deadline env'.observed)
    (request : RunRequest) (hR : R [] s [] s') :
    ((settings.analyze env request).run s).1.map RunOutcome.untimed =
        ((settings.analyze env' request).run s').1.map RunOutcome.untimed ∧
      R (settings.history env request s) ((settings.analyze env request).run s).2
        (settings.history env' request s') ((settings.analyze env' request).run s').2 := by
  have hrun := settings.analyze_eq env request s
  have hrun' := settings.analyze_eq env' request s'
  rw [hw] at hrun
  rw [hw'] at hrun'
  simp only [Prod.mk.injEq] at hrun hrun'
  obtain ⟨⟨hresult, hhistory⟩, hstate⟩ := hrun
  obtain ⟨⟨hresult', hhistory'⟩, hstate'⟩ := hrun'
  have hnow : R [] (env.now.run s).2 [] (env'.now.run s').2 := (alike.now [] s [] s' hR).2
  have halike : env.observed.Alike (.observing R) (settings.context request watchdog).deadline
      watchdog'.deadline env'.observed := alike
  obtain ⟨hends, hkept⟩ := halike.analyzeRequest request [] [] rfl [] _ [] _ hnow
  rw [← settings.context_due request hw hw'] at hends hkept
  rw [hresult, hresult', hhistory, hhistory', hstate, hstate']
  exact ⟨hends.map_eq, hkept⟩

/-- What is kept whatever is asked of an environment is kept by a run. -/
theorem Settings.invariant_analyze {σ : Type} {I : History → σ → Prop}
    {env : Environment (StateM σ)}
    (kept : ∀ d, env.observed.Alike (.keeping I) d d env.observed) (settings : Settings)
    (request : RunRequest) {s : σ} (hI : I [] s) :
    I (settings.history env request s) ((settings.analyze env request).run s).2 := by
  have hnow : I [] (env.now.run s).2 := ((kept .zero).now [] s hI).2
  have hrun := settings.analyze_eq env request s
  cases hw : Watchdog.start? (env.now.run s).1 settings.run.timeout with
  | none =>
    rw [hw] at hrun
    simp only [Prod.mk.injEq] at hrun
    obtain ⟨⟨-, hhistory⟩, hstate⟩ := hrun
    rwa [hhistory, hstate]
  | some watchdog =>
    rw [hw] at hrun
    simp only [Prod.mk.injEq] at hrun
    obtain ⟨⟨-, hhistory⟩, hstate⟩ := hrun
    rw [hhistory, hstate]
    have halike : env.observed.Alike (.keeping I) (settings.context request watchdog).deadline
        watchdog.deadline env.observed := kept _
    exact (halike.analyzeRequest request [] [] rfl [] _ hnow).2

/-! ## Surroundings that are alike -/

section

variable {σ σ' α : Type} {R : σ → σ' → Prop}

/-- Histories and states of runs in environments that are alike: the same writes, times aside. -/
def SameWrites (R : σ → σ' → Prop) (h : History) (s : σ) (h' : History) (s' : σ') : Prop :=
  R s s' ∧ h.writes.map StoreWrite.untimed = h'.writes.map StoreWrite.untimed

theorem sameWrites_noting {x : StateM σ α} {y : StateM σ' α} {event event' : α → Event}
    (hx : (Coupling.ofStates R).Rel Eq x y)
    (hevent : ∀ a, (History.writes [event a]).map StoreWrite.untimed =
      (History.writes [event' a]).map StoreWrite.untimed) :
    (Coupling.observing (SameWrites R)).Rel Eq (noting event x) (noting event' y) := by
  refine Coupling.observing_noting ?_
  rintro hist s hist' s' ⟨hR, hwrites⟩
  obtain ⟨hresult, hR'⟩ := hx s s' hR
  refine ⟨hresult, hR', ?_⟩
  rw [History.writes_append, History.writes_append, List.map_append, List.map_append, hwrites,
    ← hresult, hevent]

theorem sameWrites_silent {x : StateM σ α} {y : StateM σ' α} {Q : α → α → Prop}
    (hx : (Coupling.ofStates R).Rel Q x y) :
    (Coupling.observing (SameWrites R)).Rel Q (StateT.lift x) (StateT.lift y) := by
  refine Coupling.observing_silent ?_
  rintro hist s hist' s' ⟨hR, hwrites⟩
  obtain ⟨hresult, hR'⟩ := hx s s' hR
  exact ⟨hresult, hR', hwrites⟩

theorem QueryDesk.Alike.observed {desk : QueryDesk (StateM σ)} {desk' : QueryDesk (StateM σ')}
    (h : desk.Alike (.ofStates R) desk') :
    desk.observed.Alike (.observing (SameWrites R)) desk'.observed where
  now := sameWrites_silent h.now
  isCancelled := sameWrites_noting h.isCancelled fun _ => rfl
  ask q := sameWrites_noting (h.ask q) fun _ => rfl
  record key q answer := sameWrites_noting (h.record key q answer) fun _ => rfl

/-- To observe environments that are alike shows the same writes. -/
theorem Environment.Alike.observed {env : Environment (StateM σ)} {env' : Environment (StateM σ')}
    {d d' : Duration} (h : env.Alike (.ofStates R) d d' env') :
    env.observed.Alike (.observing (SameWrites R)) d d' env'.observed where
  now := sameWrites_silent h.now
  today := sameWrites_silent h.today
  inputExists input := sameWrites_noting (h.inputExists input) fun _ => rfl
  prepare iteration := sameWrites_noting (h.prepare iteration) fun _ => rfl
  start iteration := sameWrites_noting (h.start iteration) fun _ => rfl
  next := sameWrites_noting h.next fun _ => rfl
  summary := sameWrites_noting h.summary fun _ => rfl
  expand unit := sameWrites_noting (h.expand unit) fun _ => rfl
  isExpired := sameWrites_noting h.isExpired fun _ => rfl
  openBatch := sameWrites_silent h.openBatch
  closeBatch := sameWrites_noting h.closeBatch fun _ => rfl
  desk := h.desk.observed
  pick := h.pick
  write same := by
    refine sameWrites_noting (h.write same) fun result => ?_
    cases result with
    | error e => rfl
    | ok _ => exact congrArg (fun w => [w]) same
  resetResults path := sameWrites_noting (h.resetResults path) fun _ => rfl
  appendResults path text text' := sameWrites_noting (h.appendResults path text text') fun _ => rfl

end

/-! ## Parts of the state -/

section

variable {σ τ α : Type} {part : σ → τ} {R : Event → τ → τ → Prop}

/-- Work that leaves a part of the state alone. -/
def Leaves (part : σ → τ) (x : StateM σ α) : Prop := ∀ s, part (x.run s).2 = part s

/-- Work that changes a part of the state in a way that belongs to its event. -/
def Changes (part : σ → τ) (R : Event → τ → τ → Prop) (event : α → Event) (x : StateM σ α) : Prop :=
  ∀ s, R (event (x.run s).1) (part s) (part (x.run s).2)

/-- Whatever an environment does changes a part of its state in a way that belongs to the event. -/
structure Environment.Moves (env : Environment (StateM σ)) (part : σ → τ)
    (R : Event → τ → τ → Prop) : Prop where
  now : Leaves part env.now
  today : Leaves part env.today
  openBatch : Leaves part env.openBatch
  deskNow (d : Duration) : Leaves part (env.desk d).now
  inputExists (input : String) : Changes part R (.looked input) (env.inputExists input)
  prepare (d : Duration) (i : UInt32) : Changes part R (.prepared i) (env.prepare d i)
  start (d : Duration) (i : UInt32) : Changes part R (.started i) (env.start d i)
  next (d : Duration) : Changes part R .pulled (env.next d)
  summary : Changes part R .summarized env.summary
  expand (d : Duration) (unit : AbstractedUnit) :
    Changes part R (.expanded unit) (env.expand d unit)
  isExpired (d : Duration) : Changes part R .polled (env.isExpired d)
  closeBatch (d : Duration) : Changes part R .closed (env.closeBatch d)
  isCancelled (d : Duration) : Changes part R .cancelled (env.desk d).isCancelled
  ask (d : Duration) (q : Query) : Changes part R (.asked q) ((env.desk d).ask q)
  record (d : Duration) (key : QueryKey) (q : Query) (answer : Answer) :
    Changes part R (.recorded key q answer) ((env.desk d).record key q answer)
  write (w : StoreWrite) : Changes part R (.wrote w) (env.write w)
  resetResults (path : String) : Changes part R (.reset path) (env.resetResults path)
  appendResults (path text : String) :
    Changes part R (.appended path text) (env.appendResults path text)

variable {I : History → τ → Prop} {x : StateM σ α} {y : StateT History (StateM σ) α}

theorem Leaves.bind {β : Type} {f : α → StateM σ β} (hx : Leaves part x)
    (hf : ∀ a, Leaves part (f a)) : Leaves part (x >>= f) :=
  fun s => (hf _ _).trans (hx s)

theorem Leaves.changes {event : α → Event} (h : Leaves part x)
    (hR : ∀ a before, R (event a) before before) : Changes part R event x := by
  intro s
  rw [h s]
  exact hR _ _

theorem Leaves.keeping {Q : α → α → Prop} (h : Leaves part x) (hQ : ∀ a, Q a a) :
    (Coupling.keeping fun hist s => I hist (part s)).Rel Q (StateT.lift x) y :=
  Coupling.keeping_silent hQ fun _ s hI => (h s).symm ▸ hI

/-- What each event keeps is kept by work that belongs to the event. -/
theorem Changes.keeping
    (step : ∀ hist e before after, I hist before → R e before after → I (hist ++ [e]) after)
    {event : α → Event} (h : Changes part R event x) :
    (Coupling.keeping fun hist s => I hist (part s)).Rel Eq (noting event x) y :=
  Coupling.keeping_noting fun hist s hI => step hist _ _ _ hI (h s)

/-- What each event keeps is kept by a run. -/
theorem Environment.Moves.kept {env : Environment (StateM σ)} (moves : env.Moves part R)
    (step : ∀ hist e before after, I hist before → R e before after → I (hist ++ [e]) after)
    (settings : Settings) (request : RunRequest) {s : σ} (hI : I [] (part s)) :
    I (settings.history env request s) (part ((settings.analyze env request).run s).2) := by
  have alike (d : Duration) : env.observed.Alike (.keeping fun hist s => I hist (part s)) d d
      env.observed :=
    { now := moves.now.keeping fun _ => trivial
      today := moves.today.keeping fun _ => trivial
      inputExists := fun input => (moves.inputExists input).keeping step
      prepare := fun iteration => (moves.prepare d iteration).keeping step
      start := fun iteration => (moves.start d iteration).keeping step
      next := (moves.next d).keeping step
      summary := moves.summary.keeping step
      expand := fun unit => (moves.expand d unit).keeping step
      isExpired := (moves.isExpired d).keeping step
      openBatch := moves.openBatch.keeping fun _ => rfl
      closeBatch := (moves.closeBatch d).keeping step
      desk :=
        { now := (moves.deskNow d).keeping fun _ => trivial
          isCancelled := (moves.isCancelled d).keeping step
          ask := fun q => (moves.ask d q).keeping step
          record := fun key q answer => (moves.record d key q answer).keeping step }
      write := fun _ => (moves.write _).keeping step
      resetResults := fun path => (moves.resetResults path).keeping step
      appendResults := fun path text _ => (moves.appendResults path text).keeping step }
  exact Settings.invariant_analyze alike settings request hI

end

/-! ## Environments with a store -/

section

variable {σ : Type} {store : σ → MemoryStore}

/-- Writes that succeed go to a store, and nothing else changes it. -/
def Environment.Keeps (env : Environment (StateM σ)) (store : σ → MemoryStore) : Prop :=
  env.Moves store fun e before after => after = before.putAll e.written?.toList

/-- The store holds what it held at first and what was written since. -/
def Stored (first : MemoryStore) (h : History) (store : MemoryStore) : Prop :=
  store = first.putAll h.writes

theorem Stored.step {first before after : MemoryStore} {h : History} {e : Event}
    (stored : Stored first h before) (hafter : after = before.putAll e.written?.toList) :
    Stored first (h ++ [e]) after := by
  have hone : History.writes [e] = e.written?.toList := by
    rw [History.writes, List.filterMap_cons]
    cases e.written? <;> rfl
  rw [Stored, History.writes_append, hone, MemoryStore.putAll_append, ← show before = _ from stored,
    hafter]

/-- The store after a run is the store before it with the writes of the run. -/
theorem Settings.store_eq {env : Environment (StateM σ)} (keeps : env.Keeps store)
    (settings : Settings) (request : RunRequest) (s : σ) :
    store ((settings.analyze env request).run s).2 =
      (store s).putAll (settings.history env request s).writes :=
  keeps.kept (I := Stored (store s)) (fun _ _ _ _ stored => stored.step) settings request rfl

end

end Regression
