import Regression.Refinement.Run

/-!
# Histories

The history of some work lists everything that was asked of its surroundings, each time with the
result, in this order; readings of the clock aside. It is taken by putting an observer between the
work and its surroundings: `QueryDesk.observed` and `Environment.observed` pass on what they are
asked and note it.

`Shows can x x₀ P` says that the observed work `x` does what `x₀` does, and that result and events
satisfy `P`; the events are such as the surroundings `can` produce. The rules `shows_pure` and
`shows_bind` follow the steps of the work, and `Run.shows_bind` those of a run, which keeps
stopwatches and may fail.
-/

namespace Regression

/-! ## Events -/

inductive Event where
  | looked (input : String) (found : Bool)
  | prepared (iteration : UInt32) (result : Raced (Except Failure Unit))
  | started (iteration : UInt32) (result : Raced (Except Failure Unit))
  | pulled (result : Raced (Except Failure (Option Partition)))
  | summarized (units : AbstractionSummary)
  | expanded (unit : AbstractedUnit) (result : Raced (Except Failure Unit))
  /-- The watchdog was looked at: whether it had expired. -/
  | polled (expired : Bool)
  /-- The desk was asked whether queries are cancelled. -/
  | cancelled (answer : Bool)
  | asked (q : Query) (result : Except Failure Answer)
  | recorded (key : QueryKey) (q : Query) (answer : Answer) (result : Except Failure Unit)
  /-- A batch of queries ended: why it was aborted, if it was. -/
  | closed (result : Raced (Except String Unit))
  | wrote (w : StoreWrite) (result : Except StorageError Unit)
  | reset (path : String) (result : Except FileError Unit)
  | appended (path text : String) (result : Except FileError Unit)

abbrev History := List Event

/-- What was written. -/
def Event.written? : Event → Option StoreWrite
  | .wrote w (.ok ()) => some w
  | _ => none

/-- Everything that was written. -/
def History.writes (h : History) : List StoreWrite := h.filterMap Event.written?

@[simp] theorem History.writes_append (h h' : History) : (h ++ h').writes = h.writes ++ h'.writes :=
  List.filterMap_append

section

variable {m : Type → Type} [Monad m]

/-- Do something, and note it with its result. -/
def noting {α : Type} (event : α → Event) (work : m α) : StateT History m α := do
  let a ← StateT.lift work
  modify (· ++ [event a])
  return a

def QueryDesk.observed (desk : QueryDesk m) : QueryDesk (StateT History m) where
  now := StateT.lift desk.now
  isCancelled := noting .cancelled desk.isCancelled
  ask q := noting (.asked q) (desk.ask q)
  record key q answer := noting (.recorded key q answer) (desk.record key q answer)
  pick := desk.pick

def Environment.observed (env : Environment m) : Environment (StateT History m) where
  now := StateT.lift env.now
  today := StateT.lift env.today
  inputExists input := noting (.looked input) (env.inputExists input)
  prepare deadline iteration := noting (.prepared iteration) (env.prepare deadline iteration)
  start deadline iteration := noting (.started iteration) (env.start deadline iteration)
  next deadline := noting .pulled (env.next deadline)
  summary := noting .summarized env.summary
  expand deadline unit := noting (.expanded unit) (env.expand deadline unit)
  isExpired deadline := noting .polled (env.isExpired deadline)
  openBatch := StateT.lift env.openBatch
  closeBatch deadline := noting .closed (env.closeBatch deadline)
  desk deadline := (env.desk deadline).observed
  write w := noting (.wrote w) (env.write w)
  resetResults path := noting (.reset path) (env.resetResults path)
  appendResults path text := noting (.appended path text) (env.appendResults path text)

end

/-! ## Observed work -/

section

variable {σ α β : Type}

/-- The history of observed work that begins in a state. -/
def historyOf (x : StateT History (StateM σ) α) (s : σ) : History := ((x.run []).run s).1.2

/-- The observed work `x` does what `x₀` does, and notes possible events that satisfy `P` together
with the result. -/
def Shows (can : Event → Prop) (x : StateT History (StateM σ) α) (x₀ : StateM σ α)
    (P : α → History → Prop) : Prop :=
  ∀ h s, ∃ es, (x.run h).run s = (((x₀.run s).1, h ++ es), (x₀.run s).2) ∧
    (∀ e ∈ es, can e) ∧ P (x₀.run s).1 es

variable {can : Event → Prop}

theorem shows_pure {P : α → History → Prop} {a : α} (h : P a []) :
    Shows can (pure a : StateT History (StateM σ) α) (pure a) P := by
  intro hist s
  refine ⟨[], ?_, by simp, h⟩
  rw [List.append_nil]
  rfl

theorem shows_bind {x : StateT History (StateM σ) α} {x₀ : StateM σ α}
    {f : α → StateT History (StateM σ) β} {f₀ : α → StateM σ β} {P : α → History → Prop}
    {Q : β → History → Prop} (hx : Shows can x x₀ P)
    (hf : ∀ a es, P a es → Shows can (f a) (f₀ a) fun b es' => Q b (es ++ es')) :
    Shows can (x >>= f) (x₀ >>= f₀) Q := by
  intro hist s
  obtain ⟨es, hrun, hcan, hP⟩ := hx hist s
  obtain ⟨es', hrun', hcan', hQ⟩ := hf _ es hP (hist ++ es) (x₀.run s).2
  refine ⟨es ++ es', ?_, ?_, hQ⟩
  · rw [← List.append_assoc, StateT.run_bind, StateT.run_bind, hrun]
    exact hrun'
  · intro e he
    rcases List.mem_append.mp he with he | he
    · exact hcan e he
    · exact hcan' e he

theorem shows_mono {x : StateT History (StateM σ) α} {x₀ : StateM σ α} {P Q : α → History → Prop}
    {can' : Event → Prop} (hx : Shows can x x₀ P) (hcan : ∀ e, can e → can' e)
    (h : ∀ a es, P a es → Q a es) : Shows can' x x₀ Q := by
  intro hist s
  obtain ⟨es, hrun, hes, hP⟩ := hx hist s
  exact ⟨es, hrun, fun e he => hcan e (hes e he), h _ es hP⟩

/-- Work that is not noted. -/
theorem shows_silent (x : StateM σ α) : Shows can (StateT.lift x) x fun _ es => es = [] := by
  intro hist s
  refine ⟨[], ?_, by simp, rfl⟩
  rw [List.append_nil]
  rfl

theorem shows_noting {event : α → Event} {x : StateM σ α} (h : ∀ s, can (event (x.run s).1)) :
    Shows can (noting event x) x fun a es => es = [event a] := by
  intro hist s
  refine ⟨[event (x.run s).1], rfl, ?_, rfl⟩
  intro e he
  rw [List.mem_singleton.mp he]
  exact h s

/-- What holds of the work and its history. -/
theorem Shows.holds {x : StateT History (StateM σ) α} {x₀ : StateM σ α} {P : α → History → Prop}
    (hx : Shows can x x₀ P) (s : σ) :
    P (x₀.run s).1 (historyOf x s) ∧ ∀ e ∈ historyOf x s, can e := by
  obtain ⟨es, hrun, hcan, hP⟩ := hx [] s
  have hes : historyOf x s = es := by rw [historyOf, hrun, List.nil_append]
  rw [hes]
  exact ⟨hP, hcan⟩

/-- Observed work does what the work itself does. -/
theorem Shows.run_eq {x : StateT History (StateM σ) α} {x₀ : StateM σ α} {P : α → History → Prop}
    (hx : Shows can x x₀ P) (s : σ) :
    (x.run []).run s = (((x₀.run s).1, historyOf x s), (x₀.run s).2) := by
  obtain ⟨es, hrun, -, -⟩ := hx [] s
  rw [historyOf, hrun]

/-! ## Observed surroundings -/

/-- What may happen at a desk. -/
def QueryDesk.CanEmit (desk : QueryDesk (StateM σ)) : Event → Prop
  | .cancelled answer => ∃ s, (desk.isCancelled.run s).1 = answer
  | .asked q result => ∃ s, ((desk.ask q).run s).1 = result
  | .recorded key q answer result => ∃ s, ((desk.record key q answer).run s).1 = result
  | _ => False

/-- What may happen in an environment. -/
def Environment.CanEmit (env : Environment (StateM σ)) : Event → Prop
  | .looked input found => ∃ s, ((env.inputExists input).run s).1 = found
  | .prepared iteration result => ∃ d s, ((env.prepare d iteration).run s).1 = result
  | .started iteration result => ∃ d s, ((env.start d iteration).run s).1 = result
  | .pulled result => ∃ d s, ((env.next d).run s).1 = result
  | .summarized units => ∃ s, (env.summary.run s).1 = units
  | .expanded unit result => ∃ d s, ((env.expand d unit).run s).1 = result
  | .polled expired => ∃ d s, ((env.isExpired d).run s).1 = expired
  | .closed result => ∃ d s, ((env.closeBatch d).run s).1 = result
  | .wrote w result => ∃ s, ((env.write w).run s).1 = result
  | .reset path result => ∃ s, ((env.resetResults path).run s).1 = result
  | .appended path text result => ∃ s, ((env.appendResults path text).run s).1 = result
  | e => ∃ d, (env.desk d).CanEmit e

theorem QueryDesk.canEmit_of_desk {env : Environment (StateM σ)} {d : Duration} {e : Event}
    (h : (env.desk d).CanEmit e) : env.CanEmit e := by
  cases e <;> first | exact ⟨d, h⟩ | exact h.elim

end

/-! ## Observed runs -/

namespace Run

variable {σ α β : Type}

/-- The observed steps `x` of a run do what `x₀` does. -/
def Shows (can : Event → Prop) (w : Stopwatches) (x : RunM (StateT History (StateM σ)) α)
    (x₀ : RunM (StateM σ) α) (P : Except Failure (α × Stopwatches) → History → Prop) : Prop :=
  Regression.Shows can (x.run w).run (x₀.run w).run P

variable {can : Event → Prop} {w : Stopwatches}

theorem shows_pure {P : Except Failure (α × Stopwatches) → History → Prop} {a : α}
    (h : P (.ok (a, w)) []) :
    Shows can w (pure a : RunM (StateT History (StateM σ)) α) (pure a) P :=
  Regression.shows_pure h

theorem shows_throw {P : Except Failure (α × Stopwatches) → History → Prop} {e : Failure}
    (h : P (.error e) []) :
    Shows can w (throw e : RunM (StateT History (StateM σ)) α) (throw e) P :=
  Regression.shows_pure h

theorem shows_bind {x : RunM (StateT History (StateM σ)) α} {x₀ : RunM (StateM σ) α}
    {f : α → RunM (StateT History (StateM σ)) β} {f₀ : α → RunM (StateM σ) β}
    {P : Except Failure (α × Stopwatches) → History → Prop}
    {Q : Except Failure (β × Stopwatches) → History → Prop} (hx : Shows can w x x₀ P)
    (he : ∀ e es, P (.error e) es → Q (.error e) es)
    (hf : ∀ a w' es, P (.ok (a, w')) es →
      Shows can w' (f a) (f₀ a) fun r es' => Q r (es ++ es')) :
    Shows can w (x >>= f) (x₀ >>= f₀) Q := by
  rw [Shows, StateT.run_bind, StateT.run_bind, ExceptT.run_bind, ExceptT.run_bind]
  refine Regression.shows_bind hx ?_
  intro r es hr
  cases r with
  | error e =>
    refine Regression.shows_pure ?_
    rw [List.append_nil]
    exact he e es hr
  | ok a => exact hf a.1 a.2 es hr

theorem shows_lift {x : StateT History (StateM σ) α} {x₀ : StateM σ α} {P : α → History → Prop}
    (hx : Regression.Shows can x x₀ P) :
    Shows can w (liftM x : RunM (StateT History (StateM σ)) α) (liftM x₀)
      fun r es => ∃ a, r = .ok (a, w) ∧ P a es := by
  intro hist s
  obtain ⟨es, hrun, hcan, hP⟩ := hx hist s
  have hlift : (((liftM x : RunM (StateT History (StateM σ)) α).run w).run.run hist).run s =
      ((.ok (((x.run hist).run s).1.1, w), ((x.run hist).run s).1.2), ((x.run hist).run s).2) := rfl
  exact ⟨es, by rw [hlift, hrun]; rfl, hcan, _, rfl, hP⟩

/-- A step of the environment leaves the stopwatches alone, and does not fail by itself. -/
theorem shows_bind_lift {x : StateT History (StateM σ) α} {x₀ : StateM σ α}
    {f : α → RunM (StateT History (StateM σ)) β} {f₀ : α → RunM (StateM σ) β}
    {P : α → History → Prop} {Q : Except Failure (β × Stopwatches) → History → Prop}
    (hx : Regression.Shows can x x₀ P)
    (hf : ∀ a es, P a es → Shows can w (f a) (f₀ a) fun r es' => Q r (es ++ es')) :
    Shows can w (liftM x >>= f) (liftM x₀ >>= f₀) Q := by
  refine shows_bind (shows_lift hx) ?_ ?_
  · rintro e es ⟨_, h, _⟩
    cases h
  · rintro a w' es ⟨_, h, hP⟩
    cases h
    exact hf a es hP

theorem shows_modify (f : Stopwatches → Stopwatches) :
    Shows can w (modify f : RunM (StateT History (StateM σ)) Unit) (modify f) fun r es =>
      es = [] ∧ r = .ok ((), f w) :=
  Regression.shows_pure ⟨rfl, rfl⟩

theorem shows_get :
    Shows can w (get : RunM (StateT History (StateM σ)) Stopwatches) get fun r es =>
      es = [] ∧ r = .ok (w, w) :=
  Regression.shows_pure ⟨rfl, rfl⟩

section

variable (env : Environment (StateM σ))

theorem shows_startWatch (name : String) :
    Shows can w (startWatch env.observed name) (startWatch env name) fun r es =>
      es = [] ∧ ∃ now, r = .ok ((), w.start name now) := by
  refine shows_bind_lift (shows_silent env.now) ?_
  rintro now es rfl
  exact Regression.shows_pure ⟨rfl, now, rfl⟩

theorem shows_stopWatch (name : String) :
    Shows can w (stopWatch env.observed name) (stopWatch env name) fun r es =>
      es = [] ∧ ∃ now, r = .ok (w.total name now, w.stop name now) := by
  refine shows_bind_lift (shows_silent env.now) ?_
  rintro now es rfl
  exact Regression.shows_pure ⟨rfl, now, rfl⟩

variable {env} {Q : Except Failure (β × Stopwatches) → History → Prop}

theorem shows_bind_startWatch {name : String} {f : Unit → RunM (StateT History (StateM σ)) β}
    {f₀ : Unit → RunM (StateM σ) β} (hf : ∀ now, Shows can (w.start name now) (f ()) (f₀ ()) Q) :
    Shows can w (startWatch env.observed name >>= f) (startWatch env name >>= f₀) Q := by
  refine shows_bind (shows_startWatch env name) ?_ ?_
  · rintro e es ⟨-, now, h⟩
    cases h
  · rintro _ w' es ⟨rfl, now, h⟩
    cases h
    exact hf now

theorem shows_bind_stopWatch {name : String} {f : Duration → RunM (StateT History (StateM σ)) β}
    {f₀ : Duration → RunM (StateM σ) β}
    (hf : ∀ now, Shows can (w.stop name now) (f (w.total name now)) (f₀ (w.total name now)) Q) :
    Shows can w (stopWatch env.observed name >>= f) (stopWatch env name >>= f₀) Q := by
  refine shows_bind (shows_stopWatch env name) ?_ ?_
  · rintro e es ⟨-, now, h⟩
    cases h
  · rintro _ w' es ⟨rfl, now, h⟩
    cases h
    exact hf now

end

end Run

end Regression
