import Regression.Proofs.Run.Invariants

/-!
# The course of a run

Between any two events of a history the environment is in some state. A course leads from state to
state: what is noted adds its event to the history, and what is silent adds none.

* `Settings.course`: every run takes a course that has its history.
* `Environment.Course.exists_before`: a course passes through a state before each of its events.
* `Environment.Moves.along`: what each event keeps is kept along every course.
-/

namespace Regression

section

variable {σ : Type} (env : Environment (StateM σ))

/-! ## Steps -/

/-- Asking this of an environment is not noted. -/
inductive Environment.Silent : {α : Type} → StateM σ α → Prop
  | now : Silent env.now
  | today : Silent env.today
  | openBatch : Silent env.openBatch
  | deskNow (d : Duration) : Silent (env.desk d).now

/-- Asking this of an environment is noted, together with the result. -/
inductive Environment.Noted : {α : Type} → (α → Event) → StateM σ α → Prop
  | looked (input : String) : Noted (.looked input) (env.inputExists input)
  | prepared (d : Duration) (i : UInt32) : Noted (.prepared i) (env.prepare d i)
  | started (d : Duration) (i : UInt32) : Noted (.started i) (env.start d i)
  | pulled (d : Duration) : Noted .pulled (env.next d)
  | summarized : Noted .summarized env.summary
  | expanded (d : Duration) (unit : AbstractedUnit) : Noted (.expanded unit) (env.expand d unit)
  | polled (d : Duration) : Noted .polled (env.isExpired d)
  | closed (d : Duration) : Noted .closed (env.closeBatch d)
  | cancelled (d : Duration) : Noted .cancelled (env.desk d).isCancelled
  | asked (d : Duration) (q : Query) : Noted (.asked q) ((env.desk d).ask q)
  | recorded (d : Duration) (key : QueryKey) (q : Query) (answer : Answer) :
    Noted (.recorded key q answer) ((env.desk d).record key q answer)
  | wrote (w : StoreWrite) : Noted (.wrote w) (env.write w)
  | reset (path : String) : Noted (.reset path) (env.resetResults path)
  | appended (path text : String) : Noted (.appended path text) (env.appendResults path text)

/-! ## Courses -/

/-- From the state `s` on an environment was asked for what the history says, and answered so; the
last state is its state now. -/
inductive Environment.Course (s : σ) : History → σ → Prop
  | start : Course s [] s
  | silent {α : Type} {h : History} {s' : σ} {x : StateM σ α} (course : Course s h s')
    (asked : env.Silent x) : Course s h (x.run s').2
  | noted {α : Type} {h : History} {s' : σ} {event : α → Event} {x : StateM σ α}
    (course : Course s h s') (asked : env.Noted event x) :
    Course s (h ++ [event (x.run s').1]) (x.run s').2

variable {env}

/-- A course passes through a state before each of its events. -/
theorem Environment.Course.exists_before {s s' : σ} {before after : History}
    (course : env.Course s (before ++ after) s') : ∃ s'', env.Course s before s'' := by
  generalize heq : before ++ after = h at course
  induction course generalizing after with
  | start =>
    obtain ⟨rfl, -⟩ := List.append_eq_nil_iff.mp heq
    exact ⟨s, .start⟩
  | silent _ _ ih => exact ih heq
  | noted course asked ih =>
    rcases List.eq_nil_or_concat' after with rfl | ⟨init, last, rfl⟩
    · rw [List.append_nil] at heq
      exact ⟨_, heq ▸ course.noted asked⟩
    · rw [← List.append_assoc] at heq
      exact ih (List.append_inj' heq rfl).1

/-- What each event keeps is kept along every course. -/
theorem Environment.Moves.along {τ : Type} {part : σ → τ} {R : Event → τ → τ → Prop}
    {I : History → τ → Prop} (moves : env.Moves part R)
    (step : ∀ hist e before after, I hist before → R e before after → I (hist ++ [e]) after)
    {s s' : σ} {h : History} (hI : I [] (part s)) (course : env.Course s h s') :
    I h (part s') := by
  induction course with
  | start => exact hI
  | silent _ asked ih =>
    have hleaves : ∀ {α : Type} {x : StateM σ α}, env.Silent x → Leaves part x := by
      rintro α x (_ | _ | _ | d)
      exacts [moves.now, moves.today, moves.openBatch, moves.deskNow d]
    rw [hleaves asked]
    exact ih
  | noted _ asked ih =>
    refine step _ _ _ _ ih ?_
    cases asked with
    | looked input => exact moves.inputExists input _
    | prepared d i => exact moves.prepare d i _
    | started d i => exact moves.start d i _
    | pulled d => exact moves.next d _
    | summarized => exact moves.summary _
    | expanded d unit => exact moves.expand d unit _
    | polled d => exact moves.isExpired d _
    | closed d => exact moves.closeBatch d _
    | cancelled d => exact moves.isCancelled d _
    | asked d q => exact moves.ask d q _
    | recorded d key q answer => exact moves.record d key q answer _
    | wrote w => exact moves.write w _
    | reset path => exact moves.resetResults path _
    | appended path text => exact moves.appendResults path text _

/-- Every run takes a course that has its history. -/
theorem Settings.course (settings : Settings) (env : Environment (StateM σ))
    (request : RunRequest) (s : σ) :
    env.Course s (settings.history env request s) ((settings.analyze env request).run s).2 := by
  have silent {α : Type} {x : StateM σ α} {Q : α → α → Prop} {y : StateT History (StateM σ) α}
      (asked : env.Silent x) (hQ : ∀ a, Q a a) :
      (Coupling.keeping (env.Course s)).Rel Q (StateT.lift x) y :=
    Coupling.keeping_silent hQ fun _ _ course => course.silent asked
  have noted {α : Type} {event : α → Event} {x : StateM σ α} {y : StateT History (StateM σ) α}
      (asked : env.Noted event x) :
      (Coupling.keeping (env.Course s)).Rel Eq (noting event x) y :=
    Coupling.keeping_noting fun _ _ course => course.noted asked
  have kept (d : Duration) : env.observed.Alike (.keeping (env.Course s)) d d env.observed :=
    { now := silent .now fun _ => trivial
      today := silent .today fun _ => trivial
      inputExists := fun input => noted (.looked input)
      prepare := fun i => noted (.prepared d i)
      start := fun i => noted (.started d i)
      next := noted (.pulled d)
      summary := noted .summarized
      expand := fun unit => noted (.expanded d unit)
      isExpired := noted (.polled d)
      openBatch := silent .openBatch fun _ => rfl
      closeBatch := noted (.closed d)
      desk :=
        { now := silent (.deskNow d) fun _ => trivial
          isCancelled := noted (.cancelled d)
          ask := fun q => noted (.asked d q)
          record := fun key q answer => noted (.recorded d key q answer) }
      write := fun {w _} _ => noted (.wrote w)
      resetResults := fun path => noted (.reset path)
      appendResults := fun path text _ => noted (.appended path text) }
  exact Settings.invariant_analyze kept settings request .start

end

end Regression
