import Regression.Proofs.Number.Plain
import Regression.Proofs.Search
import Regression.Stopwatch

/-!
# Labels of stopwatches

The label of a stopwatch is its topic and its task. To stop stopwatches does not change their
labels, and to start one adds a label if no other stopwatch has it.

* `Stopwatch.topicAndTask_append`: the label of a name made from a topic and a task.
* `Stopwatches.labels_start`, `Stopwatches.labels_stop`.
* `iterationTopic_inj`: iterations have different topics.
-/

namespace Regression

namespace Text

variable {c : Char} {a : List Char}

theorem splitFirst?_of_not_mem (hc : c ∉ a) : splitFirst? [c] a = none := by
  induction a with
  | nil => rfl
  | cons d a ih =>
    rw [splitFirst?_cons_of_ne (List.ne_of_not_mem_cons hc).symm,
      ih (List.not_mem_of_not_mem_cons hc)]
    rfl

theorem splitFirst?_append_cons_self (hc : c ∉ a) (b : List Char) :
    splitFirst? [c] (a ++ c :: b) = some (a, b) := by
  induction a with
  | nil => exact splitFirst?_append_self [c] b
  | cons d a ih =>
    rw [List.cons_append, splitFirst?_cons_of_ne (List.ne_of_not_mem_cons hc).symm,
      ih (List.not_mem_of_not_mem_cons hc)]
    rfl

end Text

namespace Stopwatch

theorem topicAndTask_of_not_mem {topic : String} (h : ':' ∉ topic.toList) :
    topicAndTask topic = (topic, "") := by
  rw [topicAndTask, Text.splitFirst?_of_not_mem h]

/-- The label of a name made from a topic and a task. -/
theorem topicAndTask_append {topic : String} (h : ':' ∉ topic.toList) (task : String) :
    topicAndTask (topic ++ (":" ++ task)) = (topic, task) := by
  have htext : (topic ++ (":" ++ task)).toList = topic.toList ++ ':' :: task.toList := by
    rw [String.toList_append, String.toList_append]
    rfl
  rw [topicAndTask, htext, Text.splitFirst?_append_cons_self h]
  simp

@[simp] theorem name_stop (w : Stopwatch) (now : Duration) : (w.stop now).name = w.name := rfl

@[simp] theorem name_start (w : Stopwatch) (now : Duration) : (w.start now).name = w.name := by
  unfold start
  split <;> rfl

@[simp] theorem isRunning_stop (w : Stopwatch) (now : Duration) : (w.stop now).isRunning = false :=
  rfl

end Stopwatch

namespace Stopwatches

variable {watches : Stopwatches} {name benchmark tool : String} {now : Duration}

/-- The topics and tasks of stopwatches. -/
def labels (watches : Stopwatches) : List (String × String) :=
  watches.map fun w => Stopwatch.topicAndTask w.name

@[simp] theorem labels_stop (watches : Stopwatches) (name : String) (now : Duration) :
    (watches.stop name now).labels = watches.labels := by
  rw [labels, stop, List.map_map]
  refine List.map_congr_left fun w _ => ?_
  rw [Function.comp_apply]
  split <;> rfl

@[simp] theorem labels_stopAll (watches : Stopwatches) (now : Duration) :
    (watches.stopAll now).labels = watches.labels := by
  rw [labels, stopAll, List.map_map]
  rfl

/-- A stopwatch with a new label is added behind the others. -/
theorem labels_start (h : Stopwatch.topicAndTask name ∉ watches.labels) (now : Duration) :
    (watches.start name now).labels = watches.labels ++ [Stopwatch.topicAndTask name] := by
  have hnone : watches.get? name = none := by
    rw [get?, List.find?_eq_none]
    rintro w hw hname
    refine h (List.mem_map.mpr ⟨w, hw, ?_⟩)
    rw [of_decide_eq_true hname]
  rw [start, hnone, labels, Option.isSome_none, if_neg Bool.false_ne_true, List.map_append]
  rfl

/-- The same for the name of a task. -/
theorem labels_start_task {topic task colonTask : String} (htopic : ':' ∉ topic.toList)
    (htask : colonTask = ":" ++ task) (h : (topic, task) ∉ watches.labels) (now : Duration) :
    (watches.start (topic ++ colonTask) now).labels = watches.labels ++ [(topic, task)] := by
  have hlabel : Stopwatch.topicAndTask (topic ++ colonTask) = (topic, task) := by
    rw [htask, Stopwatch.topicAndTask_append htopic]
  rw [labels_start (by rwa [hlabel]), hlabel]

theorem isRunning_of_mem_stopAll {now : Duration} {w : Stopwatch}
    (h : w ∈ watches.stopAll now) : w.isRunning = false := by
  obtain ⟨w, -, rfl⟩ := List.mem_map.mp h
  rfl

theorem map_label_records (watches : Stopwatches) (benchmark tool : String) (now : Duration) :
    (watches.records benchmark tool now).map (fun r => (r.topic, r.task)) = watches.labels := by
  have hlabels : watches.labels =
      (watches.zipIdx.map Prod.fst).map fun w => Stopwatch.topicAndTask w.name := by
    rw [List.zipIdx_map_fst, labels]
  rw [hlabels, records, List.map_map, List.map_map]
  rfl

theorem map_step_records (h : watches.length < UInt32.size) :
    (watches.records benchmark tool now).map (·.step.toNat) = List.range' 1 watches.length := by
  have hsteps : (watches.records benchmark tool now).map (·.step.toNat) =
      (watches.zipIdx.map Prod.snd).map fun i => (UInt32.ofNat (i + 1)).toNat := by
    rw [records, List.map_map, List.map_map]
    rfl
  have hsmall : ∀ i ∈ List.range' 0 watches.length, (UInt32.ofNat (i + 1)).toNat = 1 + i := by
    intro i hi
    rw [List.mem_range'_1] at hi
    rw [UInt32.toNat_ofNat_of_lt' (by omega)]
    exact Nat.add_comm i 1
  rw [hsteps, List.zipIdx_map_snd, List.map_congr_left hsmall, List.map_add_range']

/-- Stopwatches that were stopped are not missing, and their records do not depend on the time. -/
theorem records_of_stopped (h : ∀ w ∈ watches, w.isRunning = false) :
    (∀ now', watches.records benchmark tool now = watches.records benchmark tool now') ∧
      ∀ r ∈ watches.records benchmark tool now, r.isMissing = false := by
  have hmem (item : Stopwatch × Nat) (hitem : item ∈ watches.zipIdx) : item.1.isRunning = false :=
    h _ (List.fst_mem_of_mem_zipIdx hitem)
  refine ⟨fun now' => List.map_congr_left fun item hitem => ?_, ?_⟩
  · have hstopped : item.1.runningSince = none := by
      simpa [Stopwatch.isRunning] using hmem item hitem
    simp [Stopwatch.record, Stopwatch.elapsed, hstopped]
  · intro r hr
    obtain ⟨item, hitem, rfl⟩ := List.mem_map.mp hr
    exact hmem item hitem

end Stopwatches

/-! ## Iterations -/

/-- The topic of an iteration. -/
def iterationTopic (iteration : UInt32) : String := "iteration-" ++ toString iteration.toNat

theorem colon_not_mem_iterationTopic (iteration : UInt32) :
    ':' ∉ (iterationTopic iteration).toList := by
  rw [iterationTopic, String.toList_append, List.mem_append]
  rintro (h | h)
  · revert h
    decide
  · simpa using isDigit_of_mem_toString h

theorem iterationTopic_inj {i j : UInt32} (h : iterationTopic i = iterationTopic j) : i = j := by
  have hlists := congrArg String.toList h
  rw [iterationTopic, iterationTopic, String.toList_append, String.toList_append,
    List.append_cancel_left_eq] at hlists
  exact UInt32.toNat_inj.mp (toString_inj hlists)

theorem iterationTopic_ne_run (iteration : UInt32) : iterationTopic iteration ≠ "run" := by
  intro h
  have hlists := congrArg String.toList h
  rw [iterationTopic, String.toList_append] at hlists
  cases hlists

end Regression
