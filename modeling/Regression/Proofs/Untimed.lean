import Regression.Proofs.Store.Rows
import Regression.Stopwatch
import Regression.Verdict

/-!
# Times aside

Two runs rarely take the same time. Without their times, records, stores and stopwatches can be
compared: `untimed` keeps whether there is a time, and forgets which.

* `MemoryStore.untimed_putAll`: times play no part in what a write replaces.
* `Stopwatches.untimed_start`, `Stopwatches.untimed_stop`, `Stopwatches.untimed_records`: readings
  of the clock play no part in which stopwatches there are.
-/

namespace Regression

/-! ## Records -/

def RunRecord.untimed (r : RunRecord) : RunRecord :=
  { r with runtime := r.runtime.map fun _ => default, startedAt := default }

def IterationRecord.untimed (r : IterationRecord) : IterationRecord :=
  { r with runtime := r.runtime.map fun _ => default }

def PartitionRecord.untimed (r : PartitionRecord) : PartitionRecord :=
  { r with runtime := r.runtime.map fun _ => default }

def TimeRecord.untimed (r : TimeRecord) : TimeRecord := { r with runtime := default }

/-! ## Writes and stores -/

namespace StoreWrite

def untimed : StoreWrite → StoreWrite
  | .run r => .run r.untimed
  | .iteration r => .iteration r.untimed
  | .partition r => .partition r.untimed
  | .time r => .time r.untimed
  | .deleteRun benchmark tool => .deleteRun benchmark tool

/-- Times do not make a record contradict itself. -/
@[simp] theorem validate_untimed (w : StoreWrite) : w.untimed.validate = w.validate := by
  cases w <;> rfl

end StoreWrite

/-- A change of rows that leaves the keys alone does not matter for what is replaced. -/
theorem map_putUnder {α κ : Type} [DecidableEq κ] (key : α → κ) (f : α → α)
    (hf : ∀ r, key (f r) = key r) (record : α) (rows : List α) :
    (putUnder key record rows).map f = putUnder key (f record) (rows.map f) := by
  rw [putUnder, putUnder, List.map_append, List.filter_map]
  simp only [Function.comp_def, hf, List.map_cons, List.map_nil]

namespace MemoryStore

def untimed (s : MemoryStore) : MemoryStore :=
  { runs := s.runs.map RunRecord.untimed
    iterations := s.iterations.map IterationRecord.untimed
    partitions := s.partitions.map PartitionRecord.untimed
    times := s.times.map TimeRecord.untimed }

theorem untimed_put (s : MemoryStore) (w : StoreWrite) :
    (s.put w).untimed = s.untimed.put w.untimed := by
  cases w with
  | run r =>
    have hruns := map_putUnder RunRecord.key RunRecord.untimed (fun _ => rfl) r s.runs
    simp only [put, untimed, StoreWrite.untimed, hruns]
  | iteration r =>
    have hiterations := map_putUnder IterationRecord.key IterationRecord.untimed (fun _ => rfl)
      r s.iterations
    simp only [put, untimed, StoreWrite.untimed, hiterations]
  | partition r =>
    have hpartitions := map_putUnder PartitionRecord.key PartitionRecord.untimed (fun _ => rfl)
      r s.partitions
    simp only [put, untimed, StoreWrite.untimed, hpartitions]
  | time r =>
    have htimes := map_putUnder TimeRecord.key TimeRecord.untimed (fun _ => rfl) r s.times
    simp only [put, untimed, StoreWrite.untimed, htimes]
  | deleteRun benchmark tool =>
    simp only [put, untimed, StoreWrite.untimed, List.filter_map]
    rfl

/-- Times play no part in what is replaced. -/
theorem untimed_putAll (s : MemoryStore) (ws : List StoreWrite) :
    (s.putAll ws).untimed = s.untimed.putAll (ws.map StoreWrite.untimed) := by
  induction ws generalizing s with
  | nil => rfl
  | cons w ws ih => rw [putAll_cons, ih, untimed_put, List.map_cons, putAll_cons]

end MemoryStore

/-! ## Verdicts -/

def Verdict.untimed (v : Verdict) : Verdict := { v with runtime := .zero }

/-! ## Stopwatches -/

namespace Stopwatch

def untimed (w : Stopwatch) : Stopwatch :=
  { w with accumulated := .zero, runningSince := w.runningSince.map fun _ => .zero }

theorem untimed_start (w : Stopwatch) (now : Duration) :
    (w.start now).untimed = w.untimed.start .zero := by
  cases h : w.runningSince <;> simp [start, untimed, isRunning, h]

theorem untimed_stop (w : Stopwatch) (now : Duration) :
    (w.stop now).untimed = w.untimed.stop .zero := by
  cases h : w.runningSince with
  | none => simp [stop, untimed, elapsed, h]
  | some start =>
    have helapsed : Duration.zero + Duration.zero.since .zero = .zero := rfl
    simp [stop, untimed, elapsed, h, helapsed]

theorem untimed_record (w : Stopwatch) (benchmark tool : String) (step : UInt32) (now : Duration) :
    (w.record benchmark tool step now).untimed =
      (w.untimed.record benchmark tool step .zero).untimed := by
  have hrunning : w.untimed.isRunning = w.isRunning := by simp [isRunning, untimed]
  simp only [record, TimeRecord.untimed, hrunning]
  rfl

end Stopwatch

namespace Stopwatches

def untimed (watches : Stopwatches) : Stopwatches := watches.map Stopwatch.untimed

theorem untimed_get?_isSome (watches : Stopwatches) (name : String) :
    (watches.untimed.get? name).isSome = (watches.get? name).isSome := by
  rw [get?, get?, untimed, List.find?_map, Option.isSome_map]
  rfl

/-- What is done to the stopwatches of a name does not change the others. -/
theorem untimed_map {f g : Stopwatch → Stopwatch} (hfg : ∀ w, (f w).untimed = g w.untimed)
    (watches : Stopwatches) (name : String) :
    untimed (watches.map fun w => if w.name = name then f w else w) =
      watches.untimed.map fun w => if w.name = name then g w else w := by
  rw [untimed, untimed, List.map_map, List.map_map]
  refine List.map_congr_left fun w _ => ?_
  have hname : w.untimed.name = w.name := rfl
  simp only [Function.comp_apply, hname]
  split
  · exact hfg w
  · rfl

theorem untimed_start (watches : Stopwatches) (name : String) (now : Duration) :
    (watches.start name now).untimed = watches.untimed.start name .zero := by
  rw [start, start, untimed_get?_isSome]
  split
  · exact untimed_map (fun w => w.untimed_start now) watches name
  · simp [untimed, Stopwatch.untimed]

theorem untimed_stop (watches : Stopwatches) (name : String) (now : Duration) :
    (watches.stop name now).untimed = watches.untimed.stop name .zero :=
  untimed_map (fun w => w.untimed_stop now) watches name

theorem untimed_stopAll (watches : Stopwatches) (now : Duration) :
    (watches.stopAll now).untimed = watches.untimed.stopAll .zero := by
  rw [stopAll, stopAll, untimed, untimed, List.map_map, List.map_map]
  exact List.map_congr_left fun w _ => w.untimed_stop now

theorem untimed_records (watches : Stopwatches) (benchmark tool : String) (now : Duration) :
    (watches.records benchmark tool now).map TimeRecord.untimed =
      (watches.untimed.records benchmark tool .zero).map TimeRecord.untimed := by
  rw [records, records, untimed, List.zipIdx_map, List.map_map, List.map_map, List.map_map]
  exact List.map_congr_left fun w _ => w.1.untimed_record benchmark tool _ now

end Stopwatches

end Regression
