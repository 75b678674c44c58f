import Regression.Proofs.Run.Invariants

/-!
# A store in memory beside an environment

Every environment without a store can be given one in memory. Nothing but writes changes the store,
and whatever it holds, the environment does what it did without it.

* `Environment.storing_keeps`: writes go to the store, and nothing else does.
* `Environment.Alike.storing`: environments that are alike stay so, whatever their stores hold.
-/

namespace Regression

section

variable {τ τ' α : Type}

/-- Work on the first part of a state. -/
def onFirst (x : StateM τ α) : StateM (τ × MemoryStore) α :=
  fun s => ((x.run s.1).1, (x.run s.1).2, s.2)

def QueryDesk.onFirst (desk : QueryDesk (StateM τ)) : QueryDesk (StateM (τ × MemoryStore)) where
  now := Regression.onFirst desk.now
  isCancelled := Regression.onFirst desk.isCancelled
  ask q := Regression.onFirst (desk.ask q)
  record key q answer := Regression.onFirst (desk.record key q answer)
  pick := desk.pick

namespace Environment

/-- An environment with a store in memory. -/
def storing (env : Environment (StateM τ)) : Environment (StateM (τ × MemoryStore)) where
  now := onFirst env.now
  today := onFirst env.today
  inputExists input := onFirst (env.inputExists input)
  prepare d iteration := onFirst (env.prepare d iteration)
  start d iteration := onFirst (env.start d iteration)
  next d := onFirst (env.next d)
  summary := onFirst env.summary
  expand d unit := onFirst (env.expand d unit)
  isExpired d := onFirst (env.isExpired d)
  openBatch := onFirst env.openBatch
  closeBatch d := onFirst (env.closeBatch d)
  desk d := (env.desk d).onFirst
  write w := fun s =>
    match s.2.write w with
    | .ok store => (.ok (), s.1, store)
    | .error e => (.error e, s)
  resetResults path := onFirst (env.resetResults path)
  appendResults path text := onFirst (env.appendResults path text)

/-- What a write to a store in memory comes to. -/
theorem run_write_storing (env : Environment (StateM τ)) (w : StoreWrite) (s : τ × MemoryStore) :
    (env.storing.write w).run s =
      match w.validate with
      | .ok () => (.ok (), s.1, s.2.put w)
      | .error e => (.error e, s) := by
  cases hw : w.validate with
  | error e => simp [storing, StateT.run, MemoryStore.write, hw, bind, Except.bind]
  | ok => simp [storing, StateT.run, MemoryStore.write, hw, bind, Except.bind, pure, Except.pure]

theorem storing_keeps (env : Environment (StateM τ)) : env.storing.Keeps Prod.snd where
  now _ := rfl
  today _ := rfl
  openBatch _ := rfl
  deskNow _ _ := rfl
  inputExists _ _ := rfl
  prepare _ _ _ := rfl
  start _ _ _ := rfl
  next _ _ := rfl
  summary _ := rfl
  expand _ _ _ := rfl
  isExpired _ _ := rfl
  closeBatch _ _ := rfl
  isCancelled _ _ := rfl
  ask _ _ _ := rfl
  record _ _ _ _ _ := rfl
  write w s := by
    rw [run_write_storing]
    cases w.validate with
    | error e => rfl
    | ok _ => rfl
  resetResults _ _ := rfl
  appendResults _ _ _ := rfl

end Environment

variable {R : τ → τ' → Prop} {Q : α → α → Prop}

theorem rel_onFirst {x : StateM τ α} {y : StateM τ' α} (h : (Coupling.ofStates R).Rel Q x y) :
    (Coupling.ofStates fun s s' : _ × MemoryStore => R s.1 s'.1).Rel Q (onFirst x) (onFirst y) :=
  fun s s' hR => h s.1 s'.1 hR

/-- Environments that are alike stay so, whatever their stores hold. -/
theorem Environment.Alike.storing {env : Environment (StateM τ)} {env' : Environment (StateM τ')}
    {d d' : Duration} (h : env.Alike (.ofStates R) d d' env') :
    env.storing.Alike (.ofStates fun s s' => R s.1 s'.1) d d' env'.storing where
  now := rel_onFirst h.now
  today := rel_onFirst h.today
  inputExists input := rel_onFirst (h.inputExists input)
  prepare iteration := rel_onFirst (h.prepare iteration)
  start iteration := rel_onFirst (h.start iteration)
  next := rel_onFirst h.next
  summary := rel_onFirst h.summary
  expand unit := rel_onFirst (h.expand unit)
  isExpired := rel_onFirst h.isExpired
  openBatch := rel_onFirst h.openBatch
  closeBatch := rel_onFirst h.closeBatch
  desk :=
    { now := rel_onFirst h.desk.now
      isCancelled := rel_onFirst h.desk.isCancelled
      ask := fun q => rel_onFirst (h.desk.ask q)
      record := fun key q answer => rel_onFirst (h.desk.record key q answer) }
  pick := h.pick
  write {w w'} same := by
    intro s s' hR
    have hvalid : w.validate = w'.validate := by
      rw [← w.validate_untimed, same, w'.validate_untimed]
    rw [run_write_storing, run_write_storing, hvalid]
    cases w'.validate with
    | error e => exact ⟨rfl, hR⟩
    | ok _ => exact ⟨rfl, hR⟩
  resetResults path := rel_onFirst (h.resetResults path)
  appendResults path text text' := rel_onFirst (h.appendResults path text text')

end

end Regression
