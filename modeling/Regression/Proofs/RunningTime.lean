import Mathlib.Data.List.Induction
import Mathlib.Data.Nat.Count
import Regression.Proofs.Duration
import Regression.Proofs.Stopwatch
import Regression.Refinement.Run

/-!
# Running time

Stopwatches are pressed in the order of time: one is started or stopped, or all are stopped. The
last press that concerns a stopwatch tells whether it runs, in the end and at every moment before.
Its running time is the number of nanoseconds in which it ran.

* `Stopwatches.runsAfter_concat`, `Stopwatches.runningTime_later`: a press, and time that passes.
* `Stopwatches.tells_after`: what every stopwatch has accumulated after any presses.
* `Stopwatches.map_name_after`: which stopwatches there are.
* `stopwatches_tell`: what is read off stopwatches.
-/

namespace Regression

/-! ## One stopwatch -/

namespace Stopwatch

variable {w : Stopwatch} {now later : Duration}

@[simp] theorem isRunning_start (w : Stopwatch) (now : Duration) :
    (w.start now).isRunning = true := by
  unfold start
  split
  · assumption
  · rfl

theorem start_of_isRunning (h : w.isRunning = true) : w.start now = w := if_pos h

theorem start_of_not_isRunning (h : w.isRunning = false) :
    w.start now = { w with runningSince := some now } := by
  rw [start, h, if_neg Bool.false_ne_true]

theorem runningSince_eq_none (h : w.isRunning = false) : w.runningSince = none := by
  simpa [isRunning] using h

theorem elapsed_of_runningSince {start : Duration} (h : w.runningSince = some start) :
    w.elapsed now = w.accumulated + now.since start := by
  rw [elapsed, h]

theorem elapsed_of_not_isRunning (h : w.isRunning = false) : w.elapsed now = w.accumulated := by
  rw [elapsed, runningSince_eq_none h]

theorem stop_of_not_isRunning (h : w.isRunning = false) : w.stop now = w := by
  have hnone := runningSince_eq_none h
  rw [stop, elapsed_of_not_isRunning h]
  cases w
  cases hnone
  rfl

theorem elapsed_stop (w : Stopwatch) (now later : Duration) :
    (w.stop now).elapsed later = w.elapsed now := rfl

/-- To start a stopwatch does not change what it shows at that moment. -/
theorem elapsed_start (w : Stopwatch) (now : Duration) :
    (w.start now).elapsed now = w.elapsed now := by
  cases h : w.isRunning with
  | true => rw [start_of_isRunning h]
  | false =>
    rw [start_of_not_isRunning h, elapsed_of_not_isRunning h, elapsed_of_runningSince rfl,
      Duration.add_since_self]

/-- It was not started after a clock reading. -/
def IsStartedBy (w : Stopwatch) (now : Duration) : Prop := ∀ start ∈ w.runningSince, start ≤ now

theorem IsStartedBy.of_le (h : w.IsStartedBy now) (hlater : now ≤ later) : w.IsStartedBy later :=
  fun start hstart => Nat.le_trans (h start hstart) hlater

theorem IsStartedBy.start (h : w.IsStartedBy now) : (w.start now).IsStartedBy now := by
  cases hrunning : w.isRunning with
  | true => rwa [start_of_isRunning hrunning]
  | false =>
    rw [start_of_not_isRunning hrunning]
    rintro start ⟨⟩
    exact Nat.le_refl _

theorem isStartedBy_stop (w : Stopwatch) (now later : Duration) :
    (w.stop now).IsStartedBy later := by
  rintro start ⟨⟩

/-- While time passes, a stopwatch that runs goes on by as much. -/
theorem elapsed_later (h : w.IsStartedBy now) (hlater : now ≤ later) :
    w.elapsed later = w.elapsed now + if w.isRunning then later.since now else .zero := by
  cases hsince : w.runningSince with
  | none =>
    have hrunning : w.isRunning = false := by rw [isRunning, hsince]; rfl
    rw [elapsed_of_not_isRunning hrunning, elapsed_of_not_isRunning hrunning, hrunning,
      if_neg Bool.false_ne_true, Duration.add_zero]
  | some start =>
    have hrunning : w.isRunning = true := by rw [isRunning, hsince]; rfl
    rw [elapsed_of_runningSince hsince, elapsed_of_runningSince hsince, if_pos hrunning,
      Duration.add_assoc, Duration.since_add_since (h start hsince) hlater]

end Stopwatch

namespace Stopwatches

/-! ## Presses -/

/-- What can be done to stopwatches. -/
inductive Action where
  | start (name : String)
  | stop (name : String)
  | stopAll
  deriving DecidableEq, Repr

/-- Whether the stopwatch of a name is meant. -/
def Action.concerns (name : String) : Action → Bool
  | .start other | .stop other => other = name
  | .stopAll => true

/-- The name of the stopwatch that is started. -/
def Action.started? : Action → Option String
  | .start name => some name
  | .stop _ | .stopAll => none

/-- Something that is done at a clock reading. -/
structure Press where
  reading : Duration
  action : Action
  deriving DecidableEq, Repr

def Press.apply (watches : Stopwatches) (p : Press) : Stopwatches :=
  match p.action with
  | .start name => watches.start name p.reading
  | .stop name => watches.stop name p.reading
  | .stopAll => watches.stopAll p.reading

/-- The stopwatches after some presses. -/
def after (presses : List Press) : Stopwatches := presses.foldl Press.apply []

theorem after_concat (presses : List Press) (p : Press) :
    after (presses ++ [p]) = p.apply (after presses) := by
  rw [after, List.foldl_append]
  rfl

/-- The presses are in the order of time, and none is later than a clock reading. -/
structure PressedBy (presses : List Press) (now : Duration) : Prop where
  inOrder : presses.Pairwise fun p q => p.reading ≤ q.reading
  past : ∀ p ∈ presses, p.reading ≤ now

namespace PressedBy

variable {presses : List Press} {p : Press} {now : Duration}

theorem init (h : PressedBy (presses ++ [p]) now) : PressedBy presses p.reading := by
  obtain ⟨hbefore, -, hlast⟩ := List.pairwise_append.mp h.inOrder
  exact ⟨hbefore, fun q hq => hlast q hq p (List.mem_singleton_self p)⟩

theorem last_le (h : PressedBy (presses ++ [p]) now) : p.reading ≤ now :=
  h.past p (List.mem_append_right _ (List.mem_singleton_self p))

theorem concat (h : PressedBy presses p.reading) : PressedBy (presses ++ [p]) p.reading where
  inOrder := by
    refine List.pairwise_append.mpr ⟨h.inOrder, List.pairwise_singleton _ _, fun q hq r hr => ?_⟩
    rw [List.mem_singleton.mp hr]
    exact h.past q hq
  past := by
    refine List.forall_mem_append.mpr ⟨h.past, fun q hq => ?_⟩
    rw [List.mem_singleton.mp hq]
    exact Nat.le_refl _

end PressedBy

/-- The last press that concerns a stopwatch starts it. -/
def RunsAfter (name : String) (presses : List Press) : Prop :=
  ((presses.map (·.action)).filter (·.concerns name)).getLast? = some (.start name)

instance (name : String) (presses : List Press) : Decidable (RunsAfter name presses) :=
  inferInstanceAs (Decidable (_ = _))

/-- A stopwatch runs in the nanosecond after a moment. -/
def RunsAt (name : String) (presses : List Press) (moment : Nat) : Prop :=
  RunsAfter name (presses.filter (·.reading ≤ ⟨moment⟩))

instance (name : String) (presses : List Press) : DecidablePred (RunsAt name presses) :=
  fun _ => inferInstanceAs (Decidable (RunsAfter _ _))

/-- The length of the time in which a stopwatch ran. -/
def runningTime (name : String) (presses : List Press) (now : Duration) : Duration :=
  ⟨Nat.count (RunsAt name presses) now.nanoseconds⟩

/-- The names of the stopwatches that were started, in the order in which they first were. -/
def started (presses : List Press) : List String :=
  (presses.filterMap (·.action.started?)).eraseDups

section

variable {name : String} {presses : List Press} {p : Press} {now later : Duration}

theorem mem_started : name ∈ started presses ↔ ∃ p ∈ presses, p.action = .start name := by
  rw [started, List.mem_eraseDups, List.mem_filterMap]
  refine exists_congr fun p => and_congr_right fun _ => ?_
  cases p.action <;> simp [Action.started?]

theorem mem_started_of_runsAfter (h : RunsAfter name presses) : name ∈ started presses := by
  have hmem := List.mem_of_mem_filter (List.mem_of_getLast? h)
  obtain ⟨p, hp, haction⟩ := List.mem_map.mp hmem
  exact mem_started.mpr ⟨p, hp, haction⟩

theorem mem_started_of_runsAt {moment : Nat} (h : RunsAt name presses moment) :
    name ∈ started presses := by
  obtain ⟨p, hp, haction⟩ := mem_started.mp (mem_started_of_runsAfter h)
  exact mem_started.mpr ⟨p, List.mem_of_mem_filter hp, haction⟩

/-! ## One more press -/

theorem runsAfter_concat_of_not_concerns (h : p.action.concerns name = false) :
    RunsAfter name (presses ++ [p]) ↔ RunsAfter name presses := by
  rw [RunsAfter, RunsAfter, List.map_append, List.filter_append, List.map_singleton,
    List.filter_singleton, h, cond_false, List.append_nil]

theorem runsAfter_concat_of_concerns (h : p.action.concerns name = true) :
    RunsAfter name (presses ++ [p]) ↔ p.action = .start name := by
  rw [RunsAfter, List.map_append, List.filter_append, List.map_singleton, List.filter_singleton, h,
    cond_true, List.getLast?_concat, Option.some_inj]

/-- A repeated member is erased where it is repeated. -/
theorem eraseDups_concat (names : List String) (name : String) :
    (names ++ [name]).eraseDups =
      if name ∈ names then names.eraseDups else names.eraseDups ++ [name] := by
  rw [List.eraseDups_append, List.removeAll]
  split
  case isTrue h => simp [h]
  case isFalse h => simp [h, List.eraseDups_cons]

theorem started_concat_of_none (h : p.action.started? = none) :
    started (presses ++ [p]) = started presses := by
  have hlast : [p].filterMap (·.action.started?) = [] := List.filterMap_cons_none h
  rw [started, List.filterMap_append, hlast, List.append_nil, started]

theorem started_concat_of_some (h : p.action.started? = some name) :
    started (presses ++ [p]) =
      if name ∈ started presses then started presses else started presses ++ [name] := by
  have hlast : [p].filterMap (·.action.started?) = [name] := List.filterMap_cons_some h
  rw [started, List.filterMap_append, hlast, eraseDups_concat, started]
  simp only [List.mem_eraseDups]

theorem nodup_started (presses : List Press) : (started presses).Nodup := by
  induction presses using List.reverseRecOn with
  | nil => exact List.nodup_nil
  | append_singleton presses p ih =>
    cases h : p.action.started? with
    | none => rwa [started_concat_of_none h]
    | some name =>
      rw [started_concat_of_some h]
      split
      case isTrue => exact ih
      case isFalse hnew => exact List.concat_eq_append ▸ ih.concat hnew

/-- A press does not change what was before. -/
theorem runningTime_concat (name : String) (presses : List Press) (p : Press) :
    runningTime name (presses ++ [p]) p.reading = runningTime name presses p.reading := by
  have hbefore : ∀ moment ∈ Finset.range p.reading.nanoseconds,
      RunsAt name (presses ++ [p]) moment ↔ RunsAt name presses moment := by
    intro moment hmoment
    have hlater : ¬ p.reading ≤ ⟨moment⟩ := Nat.not_le.mpr (Finset.mem_range.mp hmoment)
    rw [RunsAt, RunsAt, List.filter_append, List.filter_singleton, decide_eq_false hlater,
      cond_false, List.append_nil]
  rw [runningTime, runningTime, Nat.count_eq_card_filter_range, Nat.count_eq_card_filter_range,
    Finset.filter_congr hbefore]

theorem runsAt_iff {moment : Nat} (past : ∀ p ∈ presses, p.reading ≤ ⟨moment⟩) :
    RunsAt name presses moment ↔ RunsAfter name presses := by
  rw [RunsAt, List.filter_eq_self.mpr fun p hp => decide_eq_true (past p hp)]

/-- While time passes, the running time of a stopwatch that runs grows by as much. -/
theorem runningTime_later (past : ∀ p ∈ presses, p.reading ≤ now) (hlater : now ≤ later) :
    runningTime name presses later = runningTime name presses now +
      if RunsAfter name presses then later.since now else .zero := by
  obtain ⟨d, hd⟩ := Nat.exists_eq_add_of_le (Duration.le_iff.mp hlater)
  have hafter (k : Nat) : RunsAt name presses (now.nanoseconds + k) ↔ RunsAfter name presses :=
    runsAt_iff fun p hp => Nat.le_trans (past p hp) (Nat.le_add_right _ k)
  refine Duration.ext ?_
  rw [runningTime, hd, Nat.count_add, Duration.nanoseconds_add]
  split
  case isTrue h =>
    rw [Nat.count_of_forall fun k _ => (hafter k).mpr h, Duration.nanoseconds_since, hd,
      Nat.add_sub_cancel_left]
    rfl
  case isFalse h =>
    rw [Nat.count_of_forall_not fun k _ => (hafter k).not.mpr h]
    rfl

end

end Stopwatches

/-! ## What stopwatches have accumulated -/

open Stopwatches

/-- A stopwatch tells whether it runs, and how long it ran. -/
structure Stopwatch.Tells (w : Stopwatch) (presses : List Press) (now : Duration) : Prop where
  isRunning : w.isRunning = true ↔ RunsAfter w.name presses
  isStartedBy : w.IsStartedBy now
  elapsed : w.elapsed now = runningTime w.name presses now

namespace Stopwatch.Tells

variable {w : Stopwatch} {presses : List Press} {p : Press} {now later : Duration}

theorem of_le (tells : w.Tells presses now) (past : ∀ p ∈ presses, p.reading ≤ now)
    (hlater : now ≤ later) : w.Tells presses later where
  isRunning := tells.isRunning
  isStartedBy := tells.isStartedBy.of_le hlater
  elapsed := by
    rw [elapsed_later tells.isStartedBy hlater, runningTime_later past hlater, tells.elapsed]
    simp only [tells.isRunning]

/-- A stopwatch that was never started ran at no time. -/
theorem of_not_started {name : String} (h : name ∉ started presses) (now : Duration) :
    Tells { name } presses now where
  isRunning := iff_of_false Bool.false_ne_true fun hruns => h (mem_started_of_runsAfter hruns)
  isStartedBy := by rintro start ⟨⟩
  elapsed := by
    refine Duration.ext (Nat.count_of_forall_not fun moment _ hruns => ?_).symm
    exact h (mem_started_of_runsAt hruns)

theorem aside (tells : w.Tells presses p.reading) (h : p.action.concerns w.name = false) :
    w.Tells (presses ++ [p]) p.reading where
  isRunning := by rw [runsAfter_concat_of_not_concerns h, tells.isRunning]
  isStartedBy := tells.isStartedBy
  elapsed := by rw [runningTime_concat, tells.elapsed]

theorem start (tells : w.Tells presses p.reading) (h : p.action = .start w.name) :
    (w.start p.reading).Tells (presses ++ [p]) p.reading where
  isRunning := by
    have hconcerns : p.action.concerns w.name = true := by simp [h, Action.concerns]
    rw [isRunning_start, name_start, runsAfter_concat_of_concerns hconcerns]
    exact iff_of_true rfl h
  isStartedBy := tells.isStartedBy.start
  elapsed := by rw [elapsed_start, name_start, runningTime_concat, tells.elapsed]

theorem stop (tells : w.Tells presses p.reading) (hconcerns : p.action.concerns w.name = true)
    (h : p.action ≠ .start w.name) : (w.stop p.reading).Tells (presses ++ [p]) p.reading where
  isRunning := by
    rw [isRunning_stop, name_stop, runsAfter_concat_of_concerns hconcerns]
    exact iff_of_false Bool.false_ne_true h
  isStartedBy := isStartedBy_stop w p.reading p.reading
  elapsed := by rw [elapsed_stop, name_stop, runningTime_concat, tells.elapsed]

end Stopwatch.Tells

namespace Stopwatches

variable {name : String} {presses : List Press} {p : Press} {watches : Stopwatches}
  {now later : Duration}

/-! ## All stopwatches -/

theorem mem_of_get? {w : Stopwatch} (h : watches.get? name = some w) :
    w ∈ watches ∧ w.name = name :=
  ⟨List.mem_of_find?_eq_some h, by simpa using List.find?_some h⟩

theorem isSome_get? : (watches.get? name).isSome = true ↔ name ∈ watches.map (·.name) := by
  rw [get?, List.find?_isSome, List.mem_map]
  simp only [decide_eq_true_iff]

/-- What is done to the stopwatch of a name keeps all names. -/
theorem name_at {f : Stopwatch → Stopwatch} (hname : ∀ w, (f w).name = w.name) (w : Stopwatch) :
    (if w.name = name then f w else w).name = w.name := by
  split
  case isTrue => exact hname w
  case isFalse => rfl

theorem map_name_at {f : Stopwatch → Stopwatch} (hname : ∀ w, (f w).name = w.name) :
    (watches.map fun w => if w.name = name then f w else w).map (·.name) =
      watches.map (·.name) := by
  rw [List.map_map]
  exact List.map_congr_left fun w _ => name_at hname w

theorem start_of_mem (h : name ∈ watches.map (·.name)) (now : Duration) :
    watches.start name now = watches.map fun w => if w.name = name then w.start now else w :=
  if_pos (isSome_get?.mpr h)

theorem start_of_not_mem (h : name ∉ watches.map (·.name)) (now : Duration) :
    watches.start name now = watches ++ [Stopwatch.start { name } now] :=
  if_neg fun hsome => h (isSome_get?.mp hsome)

theorem map_name_start (watches : Stopwatches) (name : String) (now : Duration) :
    (watches.start name now).map (·.name) =
      if name ∈ watches.map (·.name) then watches.map (·.name)
      else watches.map (·.name) ++ [name] := by
  split
  case isTrue hmem =>
    rw [start_of_mem hmem]
    exact map_name_at fun w => w.name_start now
  case isFalse hmem =>
    rw [start_of_not_mem hmem, List.map_append, List.map_singleton, Stopwatch.name_start]

theorem map_name_apply (h : watches.map (·.name) = started presses) :
    (p.apply watches).map (·.name) = started (presses ++ [p]) := by
  obtain ⟨now, action⟩ := p
  cases action with
  | start name =>
    rw [started_concat_of_some rfl, ← h]
    exact map_name_start watches name now
  | stop name =>
    rw [started_concat_of_none rfl, ← h]
    exact map_name_at fun w => w.name_stop now
  | stopAll =>
    rw [started_concat_of_none rfl, ← h]
    exact List.map_map

/-- There is one stopwatch for each name that was started. -/
theorem map_name_after (presses : List Press) :
    (after presses).map (·.name) = started presses := by
  induction presses using List.reverseRecOn with
  | nil => rfl
  | append_singleton presses p ih =>
    rw [after_concat]
    exact map_name_apply ih

/-- The stopwatch of a name, and all others. -/
theorem forall_mem_at {P : Stopwatch → Prop} {f : Stopwatch → Stopwatch}
    (hself : ∀ w ∈ watches, w.name = name → P (f w))
    (hothers : ∀ w ∈ watches, w.name ≠ name → P w) :
    ∀ w ∈ watches.map fun w => if w.name = name then f w else w, P w := by
  intro w hw
  obtain ⟨v, hv, rfl⟩ := List.mem_map.mp hw
  split
  case isTrue h => exact hself v hv h
  case isFalse h => exact hothers v hv h

/-- A press keeps what stopwatches tell. -/
theorem tells_apply (tells : ∀ w ∈ watches, w.Tells presses p.reading)
    (hnames : watches.map (·.name) = started presses) :
    ∀ w ∈ p.apply watches, w.Tells (presses ++ [p]) p.reading := by
  obtain ⟨now, action⟩ := p
  cases action with
  | start name =>
    have haside : ∀ w ∈ watches, w.name ≠ name →
        w.Tells (presses ++ [⟨now, .start name⟩]) now := fun w hw hne =>
      (tells w hw).aside (decide_eq_false hne.symm)
    show ∀ w ∈ watches.start name now, w.Tells _ now
    by_cases hmem : name ∈ watches.map (·.name)
    · rw [start_of_mem hmem]
      exact forall_mem_at (fun w hw heq => (tells w hw).start (congrArg Action.start heq.symm))
        haside
    · rw [start_of_not_mem hmem, List.forall_mem_append]
      -- A new stopwatch is one that never ran, and is then started.
      have hnew : Stopwatch.Tells { name } presses (Press.reading ⟨now, .start name⟩) :=
        .of_not_started (hnames ▸ hmem) now
      refine ⟨fun w hw => haside w hw fun heq => ?_, ?_⟩
      · exact hmem (heq ▸ List.mem_map_of_mem hw)
      · rw [List.forall_mem_singleton]
        exact hnew.start rfl
  | stop name =>
    refine forall_mem_at (fun w hw heq => ?_) fun w hw hne => ?_
    · exact (tells w hw).stop (decide_eq_true heq.symm) Action.noConfusion
    · exact (tells w hw).aside (decide_eq_false hne.symm)
  | stopAll =>
    intro w hw
    obtain ⟨v, hv, rfl⟩ := List.mem_map.mp hw
    exact (tells v hv).stop rfl Action.noConfusion

/-- Whatever was pressed, every stopwatch tells how long it ran. -/
theorem tells_after (pressed : PressedBy presses now) :
    ∀ w ∈ after presses, w.Tells presses now := by
  -- From the last press on, nothing but time passes: what is told at the press is told at the end.
  induction presses using List.reverseRecOn generalizing now with
  | nil =>
    intro w hw
    cases hw
  | append_singleton presses p ih =>
    intro w hw
    rw [after_concat] at hw
    have htells := tells_apply (ih pressed.init) (map_name_after presses) w hw
    exact htells.of_le pressed.init.concat.past pressed.last_le

/-! ## What is read off -/

theorem runningTime_of_not_started (h : name ∉ started presses) (now : Duration) :
    runningTime name presses now = .zero :=
  (Stopwatch.Tells.of_not_started h now).elapsed.symm

theorem isSome_get?_after : ((after presses).get? name).isSome = true ↔ name ∈ started presses := by
  rw [isSome_get?, map_name_after]

theorem get?_after_eq_none : (after presses).get? name = none ↔ name ∉ started presses := by
  rw [← isSome_get?_after, Option.not_isSome_iff_eq_none]

theorem elapsed?_after (pressed : PressedBy presses now) (name : String) :
    (after presses).elapsed? name now =
      if name ∈ started presses then some (runningTime name presses now) else none := by
  cases hget : (after presses).get? name with
  | none =>
    rw [elapsed?, hget, if_neg (get?_after_eq_none.mp hget), Option.map_none]
  | some w =>
    have hold : name ∈ started presses := isSome_get?_after.mp (by rw [hget, Option.isSome_some])
    obtain ⟨hw, rfl⟩ := mem_of_get? hget
    rw [elapsed?, hget, if_pos hold, Option.map_some, (tells_after pressed w hw).elapsed]

/-- The total that is returned when a stopwatch is stopped. -/
theorem total_after (pressed : PressedBy presses now) (name : String) :
    (after presses).total name now = runningTime name presses now := by
  rw [total, elapsed?_after pressed]
  split
  case isTrue => rfl
  case isFalse h => exact (runningTime_of_not_started h now).symm

theorem isRunning_after (pressed : PressedBy presses now) (name : String) :
    (after presses).isRunning name = true ↔ RunsAfter name presses := by
  cases hget : (after presses).get? name with
  | none =>
    rw [isRunning, hget]
    exact iff_of_false Bool.false_ne_true fun hruns =>
      get?_after_eq_none.mp hget (mem_started_of_runsAfter hruns)
  | some w =>
    obtain ⟨hw, rfl⟩ := mem_of_get? hget
    rw [isRunning, hget]
    exact (tells_after pressed w hw).isRunning

theorem map_at_eq_self {f : Stopwatch → Stopwatch}
    (h : ∀ w ∈ watches, w.name = name → f w = w) :
    (watches.map fun w => if w.name = name then f w else w) = watches := by
  refine (List.map_congr_left fun w hw => ?_).trans (List.map_id watches)
  split
  case isTrue hself => exact h w hw hself
  case isFalse => rfl

/-- To start a stopwatch that runs changes nothing. -/
theorem start_after (pressed : PressedBy presses now) (hruns : RunsAfter name presses) :
    (after presses).start name now = after presses := by
  have hmem : name ∈ (after presses).map (·.name) :=
    map_name_after presses ▸ mem_started_of_runsAfter hruns
  rw [start_of_mem hmem]
  refine map_at_eq_self fun w hw heq => Stopwatch.start_of_isRunning ?_
  exact (tells_after pressed w hw).isRunning.mpr (heq ▸ hruns)

/-- To stop a stopwatch that does not run changes nothing. -/
theorem stop_after (pressed : PressedBy presses now) (hruns : ¬ RunsAfter name presses) :
    (after presses).stop name now = after presses := by
  refine map_at_eq_self fun w hw heq => Stopwatch.stop_of_not_isRunning ?_
  rw [Bool.eq_false_iff, Ne, (tells_after pressed w hw).isRunning, heq]
  exact hruns

/-- The other stopwatches stay as they are, in their order. -/
theorem filter_ne_map {f : Stopwatch → Stopwatch} (hname : ∀ w, (f w).name = w.name) :
    (watches.map fun w => if w.name = name then f w else w).filter (·.name ≠ name) =
      watches.filter (·.name ≠ name) := by
  have hkept : (fun w : Stopwatch => decide (w.name ≠ name)) ∘
      (fun w => if w.name = name then f w else w) = fun w => decide (w.name ≠ name) := by
    funext w
    rw [Function.comp_apply, name_at hname]
  rw [List.filter_map, hkept]
  refine map_at_eq_self fun w hw heq => ?_
  have hne : w.name ≠ name := by simpa using List.of_mem_filter hw
  exact absurd heq hne

theorem filter_ne_start (watches : Stopwatches) (name : String) (now : Duration) :
    (watches.start name now).filter (·.name ≠ name) = watches.filter (·.name ≠ name) := by
  by_cases hmem : name ∈ watches.map (·.name)
  · rw [start_of_mem hmem]
    exact filter_ne_map fun w => w.name_start now
  · rw [start_of_not_mem hmem, List.filter_append, List.filter_singleton]
    simp

theorem filter_ne_stop (watches : Stopwatches) (name : String) (now : Duration) :
    (watches.stop name now).filter (·.name ≠ name) = watches.filter (·.name ≠ name) :=
  filter_ne_map fun w => w.name_stop now

theorem get?_stop (watches : Stopwatches) (name : String) (now : Duration) :
    (watches.stop name now).get? name = (watches.get? name).map (·.stop now) := by
  have hkept : (fun w : Stopwatch => decide (w.name = name)) ∘
      (fun w => if w.name = name then w.stop now else w) = fun w => decide (w.name = name) := by
    funext w
    rw [Function.comp_apply, name_at fun w => w.name_stop now]
  rw [get?, stop, List.find?_map, hkept]
  refine Option.map_congr fun w hw => if_pos ?_
  exact (mem_of_get? hw).2

/-- A stopwatch that was stopped keeps showing its total. -/
theorem total_stop (watches : Stopwatches) (name : String) (now later : Duration) :
    (watches.stop name now).total name later = watches.total name now := by
  rw [total, elapsed?, get?_stop, Option.map_map]
  rfl

/-- The record of the stopwatch of a name. -/
def recordAfter (presses : List Press) (benchmark tool : String) (now : Duration) (name : String)
    (step : Nat) : TimeRecord :=
  { benchmark, tool
    topic := (Stopwatch.topicAndTask name).1
    task := (Stopwatch.topicAndTask name).2
    step := .ofNat step
    runtime := (runningTime name presses now).seconds
    isMissing := RunsAfter name presses }

theorem records_after (pressed : PressedBy presses now) (benchmark tool : String) :
    (after presses).records benchmark tool now =
      ((started presses).zipIdx 1).map fun item =>
        recordAfter presses benchmark tool now item.1 item.2 := by
  rw [records, ← map_name_after, List.zipIdx_succ, List.zipIdx_map, List.map_map, List.map_map]
  refine List.map_congr_left fun item hitem => ?_
  have htells := tells_after pressed item.1 (List.fst_mem_of_mem_zipIdx hitem)
  have hmissing : item.1.isRunning = decide (RunsAfter item.1.name presses) := by
    rw [Bool.eq_iff_iff, htells.isRunning, decide_eq_true_iff]
  have hrecord : item.1.record benchmark tool (.ofNat (item.2 + 1)) now =
      recordAfter presses benchmark tool now item.1.name (item.2 + 1) := by
    rw [recordAfter, ← htells.elapsed, ← hmissing]
    rfl
  exact hrecord

/-- A stopwatch that is started goes on from what it showed. -/
theorem total_start (pressed : PressedBy presses now) (name : String) (hlater : now ≤ later) :
    ((after presses).start name now).total name later =
      runningTime name presses now + later.since now := by
  let p : Press := ⟨now, .start name⟩
  have hpressed : PressedBy (presses ++ [p]) now := PressedBy.concat pressed
  have hconcerns : p.action.concerns name = true := decide_eq_true rfl
  have hruns : RunsAfter name (presses ++ [p]) := (runsAfter_concat_of_concerns hconcerns).mpr rfl
  have hstart : (after presses).start name now = after (presses ++ [p]) :=
    (after_concat presses p).symm
  rw [hstart, total_after ⟨hpressed.inOrder, fun q hq => Nat.le_trans (hpressed.past q hq) hlater⟩,
    runningTime_later hpressed.past hlater, if_pos hruns]
  exact congrArg (· + later.since now) (runningTime_concat name presses p)

/-- What is read off stopwatches at a clock reading, after some presses. -/
structure Readings (presses : List Press) (now : Duration) : Prop where
  /-- A stopwatch shows how long it ran. There is none that was never started. -/
  elapsed : ∀ name, (after presses).elapsed? name now =
    if name ∈ started presses then some (runningTime name presses now) else none
  isRunning : ∀ name, (after presses).isRunning name = true ↔ RunsAfter name presses
  /-- To stop a stopwatch returns the time for which it ran, which it shows from then on. -/
  returned : ∀ name later, (after presses).total name now = runningTime name presses now ∧
    ((after presses).stop name now).total name later = runningTime name presses now
  /-- So it is in a run. -/
  returnedInRun : ∀ {σ : Type} (env : Environment (StateM σ)) (s : σ) (name : String),
    (env.now.run s).1 = now → (((Run.stopWatch env name).run (after presses)).run.run s).1 =
      .ok (runningTime name presses now, (after presses).stop name now)
  /-- A stopwatch that is started goes on from there. -/
  resumed : ∀ name later, now ≤ later → ((after presses).start name now).total name later =
    runningTime name presses now + later.since now
  startedTwice : ∀ name, RunsAfter name presses →
    (after presses).start name now = after presses
  stoppedTwice : ∀ name, ¬ RunsAfter name presses →
    (after presses).stop name now = after presses
  /-- To start or stop one leaves the others as they are, and in their order. -/
  others : ∀ name,
    ((after presses).start name now).filter (·.name ≠ name) =
        (after presses).filter (·.name ≠ name) ∧
      ((after presses).stop name now).filter (·.name ≠ name) =
        (after presses).filter (·.name ≠ name)
  /-- Every name that was started counts once. -/
  distinct : (started presses).Nodup ∧
    ∀ name, name ∈ started presses ↔ ∃ p ∈ presses, p.action = .start name
  /-- There is one record for each of them, in the order in which they were first started. -/
  records : ∀ benchmark tool, (after presses).records benchmark tool now =
    ((started presses).zipIdx 1).map fun item =>
      recordAfter presses benchmark tool now item.1 item.2
  steps : ∀ benchmark tool, (started presses).length < UInt32.size →
    ((after presses).records benchmark tool now).map (·.step.toNat) =
      List.range' 1 (started presses).length

end Stopwatches

/-- Stopwatches measure the time in which they run, in whatever order they are pressed. -/
theorem stopwatches_tell {presses : List Press} {now : Duration}
    (pressed : PressedBy presses now) : Readings presses now where
  elapsed := elapsed?_after pressed
  isRunning := isRunning_after pressed
  returned name later :=
    ⟨total_after pressed name, (total_stop _ name now later).trans (total_after pressed name)⟩
  returnedInRun env s name hnow := by
    rw [← total_after pressed name, ← hnow]
    rfl
  resumed name _ hlater := total_start pressed name hlater
  startedTwice _ hruns := start_after pressed hruns
  stoppedTwice _ hruns := stop_after pressed hruns
  others name := ⟨filter_ne_start _ name now, filter_ne_stop _ name now⟩
  distinct := ⟨nodup_started presses, fun _ => mem_started⟩
  records := records_after pressed
  steps benchmark tool hsmall := by
    have hlength : (after presses).length = (started presses).length := by
      rw [← map_name_after, List.length_map]
    rw [map_step_records (hlength ▸ hsmall), hlength]

/-! ## An example -/

/-- A run and a task of it. The run is started and stopped twice in a row, and it is resumed. -/
def runAndTask : List Press :=
  [⟨⟨1⟩, .start "run"⟩, ⟨⟨2⟩, .start "run:task"⟩, ⟨⟨3⟩, .start "run"⟩, ⟨⟨4⟩, .stop "run"⟩,
    ⟨⟨5⟩, .stop "run"⟩, ⟨⟨7⟩, .start "run"⟩, ⟨⟨9⟩, .stopAll⟩, ⟨⟨9⟩, .start "run:task"⟩]

/-- The run took from 1 to 4 and from 7 to 9, and the task still runs. -/
theorem stopwatches_tell_runAndTask :
    PressedBy runAndTask ⟨12⟩ ∧ Readings runAndTask ⟨12⟩ ∧
      (after runAndTask).elapsed? "run" ⟨12⟩ = some ⟨5⟩ ∧
      (after runAndTask).elapsed? "run:task" ⟨12⟩ = some ⟨10⟩ ∧
      (after runAndTask).elapsed? "task" ⟨12⟩ = none ∧
      ((after runAndTask).records "b" "t" ⟨12⟩).map (fun r => (r.task, r.step, r.isMissing)) =
        [("", 1, false), ("task", 2, true)] := by
  have pressed : PressedBy runAndTask ⟨12⟩ := ⟨by decide, by decide⟩
  have readings := stopwatches_tell pressed
  refine ⟨pressed, readings, ?_, ?_, ?_, ?_⟩
  · rw [readings.elapsed]
    decide +kernel
  · rw [readings.elapsed]
    decide +kernel
  · rw [readings.elapsed]
    decide +kernel
  · rw [readings.records]
    decide +kernel

end Regression
