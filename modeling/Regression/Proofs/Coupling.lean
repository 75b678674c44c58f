import Mathlib.Data.List.InsertIdx
import Regression.Proofs.Untimed
import Regression.Refinement.Run

/-!
# Coupled computations

The oracle and the run are written for every kind of computation: all they know of their
surroundings is what these answer. A coupling relates computations of two kinds, such that what is
put together from related parts is related again. Surroundings that are alike in this sense then
have the oracle do the same, and the run as well.

Clock readings and dates are not answers in this sense. Two of them are always alike, and what was
measured with them is compared with the times left aside.

* `Coupling.steps`: steps of a run are coupled if they end alike.
* `QueryDesk.Alike.checkAll`: at desks that are alike, the oracle comes to the same verdicts if it
  checks the partitions in the same order.
-/

namespace Regression

/-- A relation between computations of two kinds, for each relation between their results. -/
structure Coupling (m n : Type → Type) [Monad m] [Monad n] where
  Rel {α β : Type} : (α → β → Prop) → m α → n β → Prop
  pure {α β : Type} {Q : α → β → Prop} {a : α} {b : β} :
    Q a b → Rel Q (Pure.pure a) (Pure.pure b)
  bind {α β γ δ : Type} {Q : α → β → Prop} {Q' : γ → δ → Prop} {x : m α} {y : n β}
    {f : α → m γ} {g : β → n δ} :
    Rel Q x y → (∀ a b, Q a b → Rel Q' (f a) (g b)) → Rel Q' (x >>= f) (y >>= g)

namespace Coupling

section

variable {m n : Type → Type} [Monad m] [Monad n] [LawfulMonad m] [LawfulMonad n]
  (C : Coupling m n) {α β γ δ : Type} {Q : α → β → Prop}

theorem map {Q' : γ → δ → Prop} {x : m α} {y : n β} {f : α → γ} {g : β → δ} (h : C.Rel Q x y)
    (hfg : ∀ a b, Q a b → Q' (f a) (g b)) : C.Rel Q' (f <$> x) (g <$> y) := by
  rw [map_eq_pure_bind, map_eq_pure_bind]
  exact C.bind h fun a b hab => C.pure (hfg a b hab)

end

/-! ## Steps of runs -/

section

variable {α β γ δ : Type}

/-- Steps of two runs end alike: with related results and the same stopwatches, times aside, or
with the same failure. -/
inductive Ends (Q : α → β → Prop) :
    Except Failure (α × Stopwatches) → Except Failure (β × Stopwatches) → Prop
  | ok {a : α} {b : β} {w w' : Stopwatches} (result : Q a b) (watches : w.untimed = w'.untimed) :
    Ends Q (.ok (a, w)) (.ok (b, w'))
  | error {e : Failure} : Ends Q (.error e) (.error e)

theorem Ends.refl (r : Except Failure (α × Stopwatches)) : Ends Eq r r := by
  rcases r with e | ⟨a, w⟩
  · exact .error
  · exact .ok rfl rfl

theorem Ends.map_eq {f : α → γ} {g : β → γ} {r : Except Failure (α × Stopwatches)}
    {r' : Except Failure (β × Stopwatches)} (h : Ends (fun a b => f a = g b) r r') :
    (r.map (·.1)).map f = (r'.map (·.1)).map g := by
  cases h with
  | ok result => exact congrArg Except.ok result
  | error => rfl

variable {m n : Type → Type} [Monad m] [Monad n] (C : Coupling m n)

/-- Steps of runs are coupled if they end alike, whenever they begin with the same stopwatches. -/
def steps : Coupling (RunM m) (RunM n) where
  Rel Q x y := ∀ w w' : Stopwatches, w.untimed = w'.untimed →
    C.Rel (Ends Q) (x.run w).run (y.run w').run
  pure h _ _ hw := C.pure (.ok h hw)
  bind hx hf w w' hw := by
    refine C.bind (hx w w' hw) ?_
    rintro _ _ (⟨hab, hw⟩ | _)
    · exact hf _ _ hab _ _ hw
    · exact C.pure Ends.error

variable {Q : α → β → Prop}

theorem steps_throw [LawfulMonad m] [LawfulMonad n] (e : Failure) :
    C.steps.Rel Q (throw e : RunM m α) (throw e : RunM n β) := by
  intro w w' _
  have hrun {l : Type → Type} [Monad l] [LawfulMonad l] {γ : Type} (v : Stopwatches) :
      ((throw e : RunM l γ).run v).run = Pure.pure (.error e) := by
    simp [throw, throwThe, MonadExceptOf.throw]
  rw [hrun, hrun]
  exact C.pure Ends.error

theorem steps_modify {f g : Stopwatches → Stopwatches}
    (hfg : ∀ w w' : Stopwatches, w.untimed = w'.untimed → (f w).untimed = (g w').untimed) :
    C.steps.Rel (fun _ _ => True) (modify f : RunM m Unit) (modify g : RunM n Unit) :=
  fun w w' hw => C.pure (.ok trivial (hfg w w' hw))

theorem steps_get :
    C.steps.Rel (fun w w' => w.untimed = w'.untimed) (get : RunM m Stopwatches)
      (get : RunM n Stopwatches) :=
  fun _ _ hw => C.pure (.ok hw hw)

/-- What is asked of the surroundings leaves the stopwatches alone. -/
theorem steps_lift [LawfulMonad m] [LawfulMonad n] {x : m α} {y : n β} (h : C.Rel Q x y) :
    C.steps.Rel Q (liftM x : RunM m α) (liftM y : RunM n β) := by
  intro w w' hw
  have hrun {l : Type → Type} [Monad l] [LawfulMonad l] {γ : Type} (z : l γ) (v : Stopwatches) :
      ((liftM z : RunM l γ).run v).run = (fun c => .ok (c, v)) <$> z := by
    simp [liftM, monadLift, MonadLift.monadLift, ExceptT.lift]
  rw [hrun, hrun]
  exact C.map h fun a b hab => .ok hab hw

end

end Coupling

/-! ## Surroundings that are alike -/

section

variable {m n : Type → Type} [Monad m] [Monad n] {C : Coupling m n}

structure QueryDesk.Alike (C : Coupling m n) (desk : QueryDesk m) (desk' : QueryDesk n) :
    Prop where
  now : C.Rel (fun _ _ => True) desk.now desk'.now
  isCancelled : C.Rel Eq desk.isCancelled desk'.isCancelled
  ask (q : Query) : C.Rel Eq (desk.ask q) (desk'.ask q)
  record (key : QueryKey) (q : Query) (answer : Answer) :
    C.Rel Eq (desk.record key q answer) (desk'.record key q answer)

/-- Two environments answer alike, the one with a deadline and the other with another one, except
for what partitions are checked with. -/
structure Environment.Akin (C : Coupling m n) (d d' : Duration) (env : Environment m)
    (env' : Environment n) : Prop where
  now : C.Rel (fun _ _ => True) env.now env'.now
  today : C.Rel (fun _ _ => True) env.today env'.today
  inputExists (input : String) : C.Rel Eq (env.inputExists input) (env'.inputExists input)
  prepare (iteration : UInt32) : C.Rel Eq (env.prepare d iteration) (env'.prepare d' iteration)
  start (iteration : UInt32) : C.Rel Eq (env.start d iteration) (env'.start d' iteration)
  next : C.Rel Eq (env.next d) (env'.next d')
  summary : C.Rel Eq env.summary env'.summary
  expand (unit : AbstractedUnit) : C.Rel Eq (env.expand d unit) (env'.expand d' unit)
  write {w w' : StoreWrite} (same : w.untimed = w'.untimed) : C.Rel Eq (env.write w) (env'.write w')
  resetResults (path : String) : C.Rel Eq (env.resetResults path) (env'.resetResults path)
  appendResults (path text text' : String) :
    C.Rel Eq (env.appendResults path text) (env'.appendResults path text')

/-- Two environments answer alike, the one with a deadline and the other with another one. -/
structure Environment.Alike (C : Coupling m n) (d d' : Duration) (env : Environment m)
    (env' : Environment n) : Prop extends Environment.Akin C d d' env env' where
  isExpired : C.Rel Eq (env.isExpired d) (env'.isExpired d')
  openBatch : C.Rel Eq env.openBatch env'.openBatch
  closeBatch : C.Rel Eq (env.closeBatch d) (env'.closeBatch d')
  desk : (env.desk d).Alike C (env'.desk d')
  pick : (env.desk d).pick = (env'.desk d').pick := by rfl

/-! ## The oracle -/

namespace QueryDesk.Alike

variable {desk : QueryDesk m} {desk' : QueryDesk n}

theorem query (h : desk.Alike C desk') (timeoutMs : UInt64) (key : QueryKey)
    (conditions : List Expr) :
    C.Rel Eq (Oracle.query desk timeoutMs key conditions)
      (Oracle.query desk' timeoutMs key conditions) := by
  refine C.bind h.isCancelled ?_
  rintro cancelled _ rfl
  cases cancelled with
  | true => exact C.pure rfl
  | false =>
    simp only [Bool.false_eq_true, if_false]
    cases Query.build key.kind conditions timeoutMs with
    | error e => exact C.pure rfl
    | ok q =>
      refine C.bind (h.ask q) ?_
      rintro (e | answer) _ rfl
      · exact C.pure rfl
      refine C.bind (h.record key q answer) ?_
      rintro (e | ⟨⟩) _ rfl
      · exact C.pure rfl
      · exact C.pure rfl

theorem queryRelation (h : desk.Alike C desk') (timeoutMs : UInt64) (key : QueryKey)
    (pc v1 v2 : Expr) (equal : Bool) :
    C.Rel Eq (Oracle.queryRelation desk timeoutMs key pc v1 v2 equal)
      (Oracle.queryRelation desk' timeoutMs key pc v1 v2 equal) := by
  unfold Oracle.queryRelation
  cases Oracle.relate v1 v2 equal with
  | error e => exact C.pure rfl
  | ok relation => exact h.query timeoutMs key [pc, relation]

theorem compareReturned (h : desk.Alike C desk') (timeoutMs : UInt64) (iteration : UInt32)
    (p : Partition) (pc : Status) (v1 v2 : Expr) :
    C.Rel Eq (Oracle.compareReturned desk timeoutMs iteration p pc v1 v2)
      (Oracle.compareReturned desk' timeoutMs iteration p pc v1 v2) := by
  refine C.bind (h.queryRelation timeoutMs _ _ _ _ _) ?_
  rintro (e | neq) _ rfl
  · exact C.pure rfl
  dsimp only
  split
  · refine C.bind (h.queryRelation timeoutMs _ _ _ _ _) ?_
    rintro (e | eq) _ rfl
    · exact C.pure rfl
    · exact C.pure rfl
  · exact C.pure rfl

theorem investigate (h : desk.Alike C desk') (timeoutMs : UInt64) (iteration : UInt32)
    (p : Partition) :
    C.Rel Eq (Oracle.investigate desk timeoutMs iteration p)
      (Oracle.investigate desk' timeoutMs iteration p) := by
  refine C.bind (h.query timeoutMs _ _) ?_
  rintro (e | pc) _ rfl
  · exact C.pure rfl
  dsimp only
  split
  · exact C.pure rfl
  · cases p.v1.expr? with
    | none => exact C.pure rfl
    | some v1 =>
      cases p.v2.expr? with
      | none => exact C.pure rfl
      | some v2 => exact h.compareReturned timeoutMs iteration p pc v1 v2

theorem check (h : desk.Alike C desk') (timeoutMs : UInt64) (iteration : UInt32)
    (p : Partition) :
    C.Rel (fun v v' => v.untimed = v'.untimed) (Oracle.check desk timeoutMs iteration p)
      (Oracle.check desk' timeoutMs iteration p) := by
  refine C.bind h.now ?_
  intro start start' _
  refine C.bind (h.investigate timeoutMs iteration p) ?_
  rintro ⟨statuses, failure⟩ _ rfl
  refine C.bind h.now ?_
  intro finish finish' _
  exact C.pure rfl

theorem checkAll (h : desk.Alike C desk') (pick : desk.pick = desk'.pick) (timeoutMs : UInt64)
    (iteration : UInt32) (partitions : List Partition) :
    C.Rel (fun vs vs' => vs.map Verdict.untimed = vs'.map Verdict.untimed)
      (Oracle.checkAll desk timeoutMs iteration partitions)
      (Oracle.checkAll desk' timeoutMs iteration partitions) := by
  fun_induction Oracle.checkAll desk timeoutMs iteration partitions with
  | case1 =>
    rw [Oracle.checkAll]
    exact C.pure rfl
  | case2 p rest k ih =>
    rw [Oracle.checkAll, ← pick]
    refine C.bind (h.check timeoutMs iteration _) ?_
    intro v v' hv
    refine C.bind ih ?_
    intro vs vs' hvs
    exact C.pure (by rw [List.map_insertIdx, List.map_insertIdx, hv, hvs])

end QueryDesk.Alike

end

end Regression
