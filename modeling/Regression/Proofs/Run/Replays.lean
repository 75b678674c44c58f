import Regression.Proofs.Run.Invariants
import Regression.Proofs.Run.Refinement
import Regression.Rehearsal.Stage

/-!
# Runs that replay a trace

While a trace is replayed, no units are reported but those of its entries.

* `Settings.sharedNames_of_replays`: the shared units that a run sees are those of the trace.
* `Rehearsal.environment_replays`: rehearsals replay their traces, whatever faults are planned.
-/

namespace Regression

open History

/-- The names of all shared units of a trace. -/
def Trace.sharedNames (t : Trace) : List String :=
  t.entries.flatMap fun entry => entry.summary.shared.map (·.name)

namespace Replay

/-- What may happen to a replay: its own steps, which faults may prevent. -/
def Steps : Event → Replay → Replay → Prop
  | .started iteration _, before, after => after = before ∨ before.start iteration = .ok after
  | .pulled _, before, after => after = before ∨ ∃ p?, before.next = .ok (p?, after)
  | .summarized units, before, after => units = before.summary ∧ after = before
  | .expanded unit _, before, after => after = before ∨ before.expand unit.name = .ok after
  | _, before, after => after = before

/-- The entry that was started last is one of the trace. -/
def OnTrace (r : Replay) : Prop := ∀ entry ∈ r.current, entry ∈ r.trace.entries

theorem entryFor_mem {r : Replay} {iteration : UInt32} {entry : TraceEntry}
    (h : r.entryFor iteration = some entry) : entry ∈ r.trace.entries := by
  rw [entryFor, Option.or_eq_some_iff, Option.or_eq_some_iff] at h
  rcases h with h | ⟨-, h | ⟨-, h⟩⟩
  · exact List.mem_of_find?_eq_some h
  · exact List.mem_of_getElem? h
  · exact List.mem_of_getLast? h

theorem start_eq_ok {before after : Replay} {iteration : UInt32}
    (h : before.start iteration = .ok after) : after.trace = before.trace ∧ after.OnTrace := by
  unfold start at h
  cases hentry : before.entryFor iteration with
  | none =>
    rw [hentry] at h
    cases h
  | some entry =>
    rw [hentry] at h
    cases h
    refine ⟨rfl, ?_⟩
    rintro _ ⟨⟩
    exact entryFor_mem hentry

theorem next_eq_ok {before after : Replay} {p? : Option Partition}
    (h : before.next = .ok (p?, after)) :
    after.trace = before.trace ∧ after.current = before.current := by
  unfold next at h
  split at h
  · cases h
  · cases h
    exact ⟨rfl, rfl⟩
  · cases h
    exact ⟨rfl, rfl⟩

theorem expand_eq_ok {before after : Replay} {unit : String} (h : before.expand unit = .ok after) :
    after.trace = before.trace ∧ after.current = before.current := by
  unfold expand at h
  split at h
  · cases h
    exact ⟨rfl, rfl⟩
  · cases h

/-- A replay stays on its trace. -/
theorem Steps.onTrace {e : Event} {before after : Replay} (h : Steps e before after)
    (hbefore : before.OnTrace) : after.trace = before.trace ∧ after.OnTrace := by
  have hsame (htrace : after.trace = before.trace) (hcurrent : after.current = before.current) :
      after.trace = before.trace ∧ after.OnTrace := by
    refine ⟨htrace, ?_⟩
    rw [OnTrace, htrace, hcurrent]
    exact hbefore
  cases e with
  | started iteration _ =>
    rcases h with rfl | h
    · exact ⟨rfl, hbefore⟩
    · exact start_eq_ok h
  | pulled =>
    rcases h with rfl | ⟨p?, h⟩
    · exact ⟨rfl, hbefore⟩
    · exact hsame (next_eq_ok h).1 (next_eq_ok h).2
  | summarized units =>
    obtain ⟨-, rfl⟩ := h
    exact ⟨rfl, hbefore⟩
  | expanded unit _ =>
    rcases h with rfl | h
    · exact ⟨rfl, hbefore⟩
    · exact hsame (expand_eq_ok h).1 (expand_eq_ok h).2
  | _ => exact hsame (congrArg trace h) (congrArg current h)

/-- On a trace only its units are reported. -/
theorem OnTrace.summary_subset {r : Replay} (h : r.OnTrace) :
    ∀ unit ∈ r.summary.shared, unit.name ∈ r.trace.sharedNames := by
  intro unit hunit
  unfold summary at hunit
  cases hcurrent : r.current with
  | none =>
    rw [hcurrent] at hunit
    cases hunit
  | some entry =>
    rw [hcurrent] at hunit
    exact List.mem_flatMap.mpr ⟨entry, h entry hcurrent, List.mem_map_of_mem hunit⟩

/-- What is known of the history and of the replay while a trace is replayed. -/
structure Shown (t : Trace) (h : History) (r : Replay) : Prop where
  trace : r.trace = t
  onTrace : r.OnTrace
  shared : ∀ name ∈ h.sharedNames, name ∈ t.sharedNames

theorem Shown.step {t : Trace} {h : History} {e : Event} {before after : Replay}
    (shown : Shown t h before) (steps : Steps e before after) : Shown t (h ++ [e]) after := by
  obtain ⟨htrace, honTrace⟩ := steps.onTrace shown.onTrace
  refine ⟨htrace.trans shown.trace, honTrace, ?_⟩
  rw [sharedNames_append]
  refine List.forall_mem_append.mpr ⟨shown.shared, ?_⟩
  cases e with
  | summarized units =>
    obtain ⟨rfl, -⟩ := steps
    have hsubset := shown.onTrace.summary_subset
    rw [shown.trace] at hsubset
    simpa [sharedNames, summaries, Event.summary?] using hsubset
  | _ => simp [sharedNames, summaries, Event.summary?]

end Replay

/-- A trace is replayed in an environment, and nothing else changes the replay. -/
def Environment.Replays {σ : Type} (env : Environment (StateM σ)) (replay : σ → Replay) : Prop :=
  env.Moves replay Replay.Steps

/-- The shared units that are reported to a run are those of the trace. -/
theorem Settings.sharedNames_of_replays {σ : Type} {env : Environment (StateM σ)}
    {replay : σ → Replay} (replays : env.Replays replay) (settings : Settings)
    (request : RunRequest) {s : σ} (fresh : (replay s).current = none) :
    ∀ name ∈ (settings.history env request s).sharedNames,
      name ∈ (replay s).trace.sharedNames := by
  have hfresh : Replay.Shown (replay s).trace [] (replay s) := by
    refine ⟨rfl, ?_, by simp [sharedNames, summaries]⟩
    rw [Replay.OnTrace, fresh]
    rintro entry ⟨⟩
  have hshown := replays.kept (I := Replay.Shown (replay s).trace)
    (fun _ _ _ _ shown => shown.step) settings request hfresh
  exact hshown.shared

/-! ## Rehearsals -/

namespace Rehearsal

section

variable {τ : Type} (part : Stage → τ) (hclock : ∀ s clock, part { s with clock } = part s)

include hclock

/-- Time passes without a change in any other part of the stage. -/
theorem leaves_elapse (deadline time : Duration) : Leaves part (elapse deadline time) :=
  fun s => hclock s _

theorem leaves_hang (deadline : Duration) : Leaves part (hang deadline) :=
  fun s => hclock s _

theorem leaves_suffer (deadline : Duration) (faults : List Fault) :
    Leaves part (suffer deadline faults) := by
  induction faults with
  | nil => exact fun _ => rfl
  | cons f rest ih =>
    rw [suffer]
    refine (leaves_elapse part hclock deadline f.delay).bind fun late => ?_
    cases late with
    | true => exact fun _ => rfl
    | false =>
      cases hhangs : f.hangs with
      | true => exact (leaves_hang part hclock deadline).bind fun _ _ => rfl
      | false =>
        cases herror : f.error with
        | some error => exact fun _ => rfl
        | none => exact ih

theorem leaves_awaitAnswer (deadline : Duration) (q : Query) :
    Leaves part (awaitAnswer deadline q) := by
  have hget : Leaves part (get : OnStage Stage) := fun _ => rfl
  rw [awaitAnswer]
  refine hget.bind fun s => ?_
  dsimp only
  split
  · exact (leaves_hang part hclock deadline).bind fun _ _ => rfl
  · split
    · exact fun _ => rfl
    · exact leaves_elapse part hclock deadline _

/-- Work is done once at most. -/
theorem perform_once {α : Type} (P : τ → τ → Prop) (hrefl : ∀ r, P r r)
    {work : OnStage (Except Failure α)} (hwork : ∀ s, P (part s) (part (work.run s).2))
    (deadline : Duration) (point : FaultPoint) (iteration : UInt32) (delivered : Nat) (s : Stage) :
    P (part s) (part ((perform deadline point iteration delivered work).run s).2) := by
  have hsuffer := leaves_suffer part hclock deadline
    (s.faults.filter (·.strikes point iteration delivered)) s
  rw [perform, StateT.run_bind]
  simp only [StateT.run_get, pure_bind]
  split
  · exact hrefl _
  · rw [StateT.run_bind]
    generalize (suffer deadline (s.faults.filter (·.strikes point iteration delivered))).run s =
      suffered at hsuffer ⊢
    obtain ⟨result, s'⟩ := suffered
    have hsame : part s' = part s := hsuffer
    rcases result with (e | ⟨⟩) | _
    · exact hsame ▸ hrefl _
    · exact hsame ▸ hwork s'
    · exact hsame ▸ hrefl _

theorem leaves_perform {α : Type} {work : OnStage (Except Failure α)} (hwork : Leaves part work)
    (deadline : Duration) (point : FaultPoint) (iteration : UInt32) (delivered : Nat) :
    Leaves part (perform deadline point iteration delivered work) :=
  perform_once part hclock (fun before after => after = before) (fun _ => rfl) hwork deadline point
    iteration delivered

end

/-- Only what was recorded and the files show that an answer was kept. -/
theorem leaves_record {τ : Type} (part : Stage → τ)
    (hrecorded : ∀ s recorded, part { s with recorded } = part s)
    (hfiles : ∀ s files, part { s with files } = part s) (r : RecordedQuery) :
    Leaves part (record r) := by
  intro s
  simp only [record, modifyGet, MonadStateOf.modifyGet, StateT.modifyGet, StateT.run]
  split
  · exact hrecorded s _
  · exact hfiles s _

/-- Only the writes and the store show that something was written. -/
theorem leaves_write {τ : Type} (part : Stage → τ)
    (hwrites : ∀ s writes, part { s with writes } = part s)
    (hstore : ∀ s store, part { s with store } = part s) (w : StoreWrite) :
    Leaves part (write w) := by
  intro s
  simp only [write, modifyGet, MonadStateOf.modifyGet, StateT.modifyGet, StateT.run]
  split
  · exact hwrites s _
  · cases s.store.write w with
    | error e => exact hwrites s _
    | ok store => exact (hstore { s with writes := s.writes ++ [w] } store).trans (hwrites s _)

theorem leaves_onFiles {τ : Type} (part : Stage → τ)
    (hfiles : ∀ s files, part { s with files } = part s) (work : FileWork Unit) :
    Leaves part (onFiles work) :=
  fun s => hfiles s _

/-- Rehearsals replay their traces, whatever faults are planned. -/
theorem environment_replays : environment.Replays Stage.replay where
  now _ := rfl
  today _ := rfl
  openBatch _ := rfl
  deskNow _ _ := rfl
  inputExists _ _ := rfl
  prepare d i s :=
    leaves_perform Stage.replay (fun _ _ => rfl) (fun _ => rfl) d .prepare i 0
      { s with prepared := i }
  start d i s := by
    refine perform_once Stage.replay (fun _ _ => rfl)
      (fun before after => after = before ∨ before.start i = .ok after) (fun _ => .inl rfl)
      (fun s => ?_) d .start i 0 { s with started := i, delivered := 0 }
    simp only [modifyGet, MonadStateOf.modifyGet, StateT.modifyGet, StateT.run]
    cases s.replay.start i with
    | error fault => exact .inl rfl
    | ok replay => exact .inr rfl
  next d s := by
    refine perform_once Stage.replay (fun _ _ => rfl)
      (fun before after => after = before ∨ ∃ p?, before.next = .ok (p?, after)) (fun _ => .inl rfl)
      (fun s => ?_) d .next s.started s.delivered s
    simp only [modifyGet, MonadStateOf.modifyGet, StateT.modifyGet, StateT.run]
    cases s.replay.next with
    | error fault => exact .inl rfl
    | ok r => exact .inr ⟨r.1, rfl⟩
  summary s := ⟨rfl, rfl⟩
  expand d unit s := by
    refine perform_once Stage.replay (fun _ _ => rfl)
      (fun before after => after = before ∨ before.expand unit.name = .ok after)
      (fun _ => .inl rfl) (fun s => ?_) d .expand s.prepared 0 s
    simp only [modifyGet, MonadStateOf.modifyGet, StateT.modifyGet, StateT.run]
    cases s.forgetsExpansions with
    | true => exact .inl rfl
    | false =>
      cases s.replay.expand unit.name with
      | error fault => exact .inl rfl
      | ok replay => exact .inr rfl
  isExpired _ _ := rfl
  closeBatch _ _ := rfl
  isCancelled _ _ := rfl
  ask d q := Leaves.changes (leaves_awaitAnswer Stage.replay (fun _ _ => rfl) d q) fun _ _ => rfl
  record d key q answer :=
    (leaves_record Stage.replay (fun _ _ => rfl) (fun _ _ => rfl) _).changes fun _ _ => rfl
  write w :=
    (leaves_write Stage.replay (fun _ _ => rfl) (fun _ _ => rfl) w).changes fun _ _ => rfl
  resetResults path :=
    (leaves_onFiles Stage.replay (fun _ _ => rfl) (.resetResults path)).changes fun _ _ => rfl
  appendResults path text :=
    (leaves_onFiles Stage.replay (fun _ _ => rfl) (.appendResults path text)).changes fun _ _ => rfl

end Rehearsal

end Regression
