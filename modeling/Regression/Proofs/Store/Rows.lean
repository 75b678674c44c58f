import Mathlib.Data.List.Nodup
import Regression.Store.Memory

/-!
# The rows of a store

Writes change a store table by table: a row takes the place of the one with its key. What is kept
about one run, `MemoryStore.under`, is a store of its own, which only depends on the writes about
this run, and after the run was deleted not even on what the store held before.

* `putRows_of_nodup`: rows with different keys are added, and replace what was under their keys.
* `MemoryStore.under_putAll_of_ne`: writes about one run leave all other runs alone.
* `MemoryStore.under_putAll_deleteRun`: what is kept about a run after it was deleted.
-/

namespace Regression

/-! ## Tables -/

/-- Rows that are sorted by a number come in ascending order. -/
theorem sorted_mergeSort {α : Type} (number : α → UInt32) (rows : List α) :
    (rows.mergeSort fun r r' => number r ≤ number r').Pairwise
      fun r r' => number r ≤ number r' := by
  have htrans (a b c : α) (hab : decide (number a ≤ number b) = true)
      (hbc : decide (number b ≤ number c) = true) : decide (number a ≤ number c) = true :=
    decide_eq_true (UInt32.le_trans (of_decide_eq_true hab) (of_decide_eq_true hbc))
  have htotal (a b : α) :
      (decide (number a ≤ number b) || decide (number b ≤ number a)) = true := by
    simpa using UInt32.le_total (number a) (number b)
  simpa using List.pairwise_mergeSort htrans htotal rows

section

variable {α κ : Type} [DecidableEq κ] {key : α → κ}

/-- The rows of a table after some records were put into it. -/
def putRows (key : α → κ) (rows records : List α) : List α :=
  records.foldl (fun rows record => putUnder key record rows) rows

@[simp] theorem putRows_nil (rows : List α) : putRows key rows [] = rows := rfl

@[simp] theorem putRows_cons (rows : List α) (record : α) (records : List α) :
    putRows key rows (record :: records) = putRows key (putUnder key record rows) records :=
  rfl

theorem putRows_append (rows records records' : List α) :
    putRows key rows (records ++ records') = putRows key (putRows key rows records) records' :=
  List.foldl_append

/-- A record that is replaced at once might as well not have been put. -/
theorem putUnder_putUnder {record record' : α} (rows : List α) (h : key record = key record') :
    putUnder key record' (putUnder key record rows) = putUnder key record' rows := by
  simp [putUnder, h, List.filter_filter]

/-- A condition on keys does not see a record that it excludes. -/
theorem filter_putUnder_of_not {p : α → Bool} (hp : ∀ r r', key r = key r' → p r = p r')
    {record : α} (rows : List α) (hrecord : p record = false) :
    (putUnder key record rows).filter p = rows.filter p := by
  have hrows : (rows.filter (key · ≠ key record)).filter p = rows.filter p := by
    rw [List.filter_filter]
    refine List.filter_congr fun r _ => ?_
    by_cases hkey : key r = key record
    · simp [hp r record hkey, hrecord]
    · simp [hkey]
  have hlast : [record].filter p = [] := by simp [hrecord]
  rw [putUnder, List.filter_append, hrows, hlast, List.append_nil]

theorem filter_putUnder {p : α → Bool} {record : α} (rows : List α) (hrecord : p record = true) :
    (putUnder key record rows).filter p = putUnder key record (rows.filter p) := by
  have hlast : [record].filter p = [record] := by simp [hrecord]
  rw [putUnder, putUnder, List.filter_append, hlast, List.filter_filter, List.filter_filter]
  congr 1
  exact List.filter_congr fun r _ => Bool.and_comm _ _

/-- The rows under a condition on keys are a table of their own. -/
theorem filter_putRows {p : α → Bool} (hp : ∀ r r', key r = key r' → p r = p r')
    (rows records : List α) :
    (putRows key rows records).filter p = putRows key (rows.filter p) (records.filter p) := by
  induction records generalizing rows with
  | nil => rfl
  | cons record records ih =>
    rw [putRows_cons, ih]
    cases hrecord : p record with
    | true => rw [filter_putUnder rows hrecord, List.filter_cons_of_pos hrecord, putRows_cons]
    | false =>
      rw [filter_putUnder_of_not hp rows hrecord, List.filter_cons_of_neg (by simp [hrecord])]

/-- Rows with different keys are added at the end, and replace what was under their keys. -/
theorem putRows_of_nodup {rows records : List α} (h : (records.map key).Nodup) :
    putRows key rows records = rows.filter (key · ∉ records.map key) ++ records := by
  induction records generalizing rows with
  | nil => simp
  | cons record records ih =>
    obtain ⟨hrecord, hrecords⟩ := List.nodup_cons.mp h
    have hkept : [record].filter (key · ∉ records.map key) = [record] :=
      List.filter_eq_self.mpr fun r hr => by simpa [List.mem_singleton.mp hr] using hrecord
    rw [putRows_cons, ih hrecords, putUnder, List.filter_append, hkept, List.filter_filter,
      List.append_assoc, List.singleton_append]
    congr 1
    refine List.filter_congr fun r _ => ?_
    simp only [List.map_cons, List.mem_cons, not_or, Bool.decide_and]
    exact Bool.and_comm _ _

/-- Rows with different keys take the places of those that were under these keys. -/
theorem putRows_of_replaced {replaced kept records : List α} (h : (records.map key).Nodup)
    (hreplaced : ∀ r ∈ replaced, key r ∈ records.map key)
    (hkept : ∀ r ∈ kept, key r ∉ records.map key) :
    putRows key (replaced ++ kept) records = kept ++ records := by
  have hgone : replaced.filter (key · ∉ records.map key) = [] :=
    List.filter_eq_nil_iff.mpr fun r hr => by simpa using hreplaced r hr
  have hleft : kept.filter (key · ∉ records.map key) = kept :=
    List.filter_eq_self.mpr fun r hr => by simpa using hkept r hr
  rw [putRows_of_nodup h, List.filter_append, hgone, hleft, List.nil_append]

theorem putRows_nil_of_nodup {records : List α} (h : (records.map key).Nodup) :
    putRows key [] records = records :=
  putRows_of_nodup h

end

/-! ## Owners -/

/-- The run to which a row belongs, as benchmark and tool. -/
def RunRecord.owner (r : RunRecord) : String × String := (r.benchmark, r.tool)

def IterationRecord.owner (r : IterationRecord) : String × String := (r.benchmark, r.tool)

def PartitionRecord.owner (r : PartitionRecord) : String × String := (r.benchmark, r.tool)

def TimeRecord.owner (r : TimeRecord) : String × String := (r.benchmark, r.tool)

theorem IterationRecord.owner_eq_of_key_eq {r r' : IterationRecord} (h : r.key = r'.key) :
    r.owner = r'.owner := by
  simp_all [key, owner]

theorem PartitionRecord.owner_eq_of_key_eq {r r' : PartitionRecord} (h : r.key = r'.key) :
    r.owner = r'.owner := by
  simp_all [key, owner]

theorem TimeRecord.owner_eq_of_key_eq {r r' : TimeRecord} (h : r.key = r'.key) :
    r.owner = r'.owner := by
  simp_all [key, owner]

section

variable {α κ : Type} [DecidableEq κ] {key : α → κ} {owner : α → String × String}
  {k : String × String}

/-- The rows that belong to a run. -/
def rowsOf (owner : α → String × String) (k : String × String) (rows : List α) : List α :=
  rows.filter (owner · = k)

theorem rowsOf_putUnder {record : α} (rows : List α) (h : owner record = k) :
    rowsOf owner k (putUnder key record rows) = putUnder key record (rowsOf owner k rows) :=
  filter_putUnder rows (decide_eq_true h)

theorem rowsOf_putUnder_of_ne {record : α} (hkey : ∀ {r r'}, key r = key r' → owner r = owner r')
    (rows : List α) (h : owner record ≠ k) :
    rowsOf owner k (putUnder key record rows) = rowsOf owner k rows :=
  filter_putUnder_of_not (fun r r' hr => by rw [hkey hr]) rows (decide_eq_false h)

/-- The rows of a run after those of another one were removed. -/
theorem rowsOf_filter_ne (k' : String × String) (rows : List α) :
    rowsOf owner k (rows.filter (owner · ≠ k')) = if k = k' then [] else rowsOf owner k rows := by
  rw [rowsOf, rowsOf, List.filter_filter]
  split
  · next h =>
    subst h
    exact List.filter_eq_nil_iff.mpr fun r _ => by simp
  · next h =>
    refine List.filter_congr fun r _ => ?_
    by_cases hr : owner r = k
    · simp [hr, h]
    · simp [hr]

end

/-! ## Writes -/

namespace StoreWrite

/-- The write puts a row that belongs to a run. -/
def PutsFor (benchmark tool : String) : StoreWrite → Prop
  | .run r => r.owner = (benchmark, tool)
  | .iteration r => r.owner = (benchmark, tool)
  | .partition r => r.owner = (benchmark, tool)
  | .time r => r.owner = (benchmark, tool)
  | .deleteRun .. => False

def run? : StoreWrite → Option RunRecord
  | .run record => some record
  | _ => none

def iteration? : StoreWrite → Option IterationRecord
  | .iteration record => some record
  | _ => none

def partition? : StoreWrite → Option PartitionRecord
  | .partition record => some record
  | _ => none

def time? : StoreWrite → Option TimeRecord
  | .time record => some record
  | _ => none

end StoreWrite

namespace MemoryStore

/-- A store after some writes. -/
def putAll (s : MemoryStore) (ws : List StoreWrite) : MemoryStore := ws.foldl put s

@[simp] theorem putAll_nil (s : MemoryStore) : s.putAll [] = s := rfl

@[simp] theorem putAll_cons (s : MemoryStore) (w : StoreWrite) (ws : List StoreWrite) :
    s.putAll (w :: ws) = (s.put w).putAll ws :=
  rfl

theorem putAll_append (s : MemoryStore) (ws ws' : List StoreWrite) :
    s.putAll (ws ++ ws') = (s.putAll ws).putAll ws' :=
  List.foldl_append

/-- Writes act table by table. -/
theorem putAll_eq {s : MemoryStore} {benchmark tool : String} {ws : List StoreWrite}
    (h : ∀ w ∈ ws, w.PutsFor benchmark tool) :
    s.putAll ws =
      { runs := putRows RunRecord.key s.runs (ws.filterMap StoreWrite.run?)
        iterations := putRows IterationRecord.key s.iterations (ws.filterMap StoreWrite.iteration?)
        partitions := putRows PartitionRecord.key s.partitions (ws.filterMap StoreWrite.partition?)
        times := putRows TimeRecord.key s.times (ws.filterMap StoreWrite.time?) } := by
  induction ws generalizing s with
  | nil => rfl
  | cons w ws ih =>
    obtain ⟨hw, hws⟩ := List.forall_mem_cons.mp h
    rw [putAll_cons, ih hws]
    cases w with
    | deleteRun => exact hw.elim
    | _ => rfl

/-! ## What is kept about a run -/

/-- What a store keeps about one run. -/
def under (s : MemoryStore) (benchmark tool : String) : MemoryStore :=
  { runs := rowsOf RunRecord.owner (benchmark, tool) s.runs
    iterations := rowsOf IterationRecord.owner (benchmark, tool) s.iterations
    partitions := rowsOf PartitionRecord.owner (benchmark, tool) s.partitions
    times := rowsOf TimeRecord.owner (benchmark, tool) s.times }

section

variable {benchmark tool benchmark' tool' : String}

theorem under_put_deleteRun (s : MemoryStore) :
    (s.put (.deleteRun benchmark' tool')).under benchmark tool =
      if (benchmark, tool) = (benchmark', tool') then .empty else s.under benchmark tool := by
  have hput : s.put (.deleteRun benchmark' tool') =
      { runs := s.runs.filter (·.owner ≠ (benchmark', tool'))
        iterations := s.iterations.filter (·.owner ≠ (benchmark', tool'))
        partitions := s.partitions.filter (·.owner ≠ (benchmark', tool'))
        times := s.times.filter (·.owner ≠ (benchmark', tool')) } := rfl
  simp only [hput, under, rowsOf_filter_ne]
  split <;> rfl

theorem under_put_of_ne {s : MemoryStore} {w : StoreWrite} (hw : w.PutsFor benchmark' tool')
    (hne : (benchmark, tool) ≠ (benchmark', tool')) :
    (s.put w).under benchmark tool = s.under benchmark tool := by
  have hother {k : String × String} (hk : k = (benchmark', tool')) : k ≠ (benchmark, tool) :=
    fun h => hne (h.symm.trans hk)
  cases w with
  | run r =>
    have hrows : rowsOf RunRecord.owner (benchmark, tool) (putUnder RunRecord.key r s.runs) = _ :=
      rowsOf_putUnder_of_ne id s.runs (hother hw)
    simp only [under, put, hrows]
  | iteration r =>
    have hrows : rowsOf IterationRecord.owner (benchmark, tool)
        (putUnder IterationRecord.key r s.iterations) = _ :=
      rowsOf_putUnder_of_ne IterationRecord.owner_eq_of_key_eq s.iterations (hother hw)
    simp only [under, put, hrows]
  | partition r =>
    have hrows : rowsOf PartitionRecord.owner (benchmark, tool)
        (putUnder PartitionRecord.key r s.partitions) = _ :=
      rowsOf_putUnder_of_ne PartitionRecord.owner_eq_of_key_eq s.partitions (hother hw)
    simp only [under, put, hrows]
  | time r =>
    have hrows : rowsOf TimeRecord.owner (benchmark, tool)
        (putUnder TimeRecord.key r s.times) = _ :=
      rowsOf_putUnder_of_ne TimeRecord.owner_eq_of_key_eq s.times (hother hw)
    simp only [under, put, hrows]
  | deleteRun => exact hw.elim

theorem under_put {s : MemoryStore} {w : StoreWrite} (hw : w.PutsFor benchmark tool) :
    (s.put w).under benchmark tool = (s.under benchmark tool).put w := by
  cases w with
  | run r => simp only [under, put, rowsOf_putUnder s.runs hw]
  | iteration r => simp only [under, put, rowsOf_putUnder s.iterations hw]
  | partition r => simp only [under, put, rowsOf_putUnder s.partitions hw]
  | time r => simp only [under, put, rowsOf_putUnder s.times hw]
  | deleteRun => exact hw.elim

/-- Writes about one run leave all other runs alone. -/
theorem under_putAll_of_ne {s : MemoryStore} {ws : List StoreWrite}
    (hws : ∀ w ∈ ws, w.PutsFor benchmark' tool' ∨ w = .deleteRun benchmark' tool')
    (hne : (benchmark, tool) ≠ (benchmark', tool')) :
    (s.putAll ws).under benchmark tool = s.under benchmark tool := by
  induction ws generalizing s with
  | nil => rfl
  | cons w ws ih =>
    obtain ⟨hw, hws⟩ := List.forall_mem_cons.mp hws
    rw [putAll_cons, ih hws]
    rcases hw with hw | rfl
    · exact under_put_of_ne hw hne
    · rw [under_put_deleteRun, if_neg hne]

theorem under_putAll {s : MemoryStore} {ws : List StoreWrite}
    (hws : ∀ w ∈ ws, w.PutsFor benchmark tool) :
    (s.putAll ws).under benchmark tool = (s.under benchmark tool).putAll ws := by
  induction ws generalizing s with
  | nil => rfl
  | cons w ws ih =>
    obtain ⟨hw, hws⟩ := List.forall_mem_cons.mp hws
    rw [putAll_cons, ih hws, under_put hw, putAll_cons]

/-- What is kept about a run that was deleted follows from what was written since. -/
theorem under_putAll_deleteRun {s : MemoryStore} {ws : List StoreWrite}
    (hws : ∀ w ∈ ws, w.PutsFor benchmark tool) :
    (s.putAll (.deleteRun benchmark tool :: ws)).under benchmark tool = empty.putAll ws := by
  rw [putAll_cons, under_putAll hws, under_put_deleteRun, if_pos rfl]

/-! ## Reading -/

/-- What is read about a run only depends on what is kept about it. -/
theorem getRun_under (s : MemoryStore) :
    (s.under benchmark tool).getRun benchmark tool = s.getRun benchmark tool := by
  simp [getRun, under, rowsOf, RunRecord.owner, RunRecord.key, List.find?_filter]

theorem getIteration_under (s : MemoryStore) (iteration : UInt32) :
    (s.under benchmark tool).getIteration benchmark tool iteration =
      s.getIteration benchmark tool iteration := by
  simp only [getIteration, under, rowsOf, List.find?_filter]
  congr 1
  ext r
  simp only [IterationRecord.owner, IterationRecord.key, Prod.mk.injEq]
  by_cases h : r.benchmark = benchmark ∧ r.tool = tool
  · simp [h]
  · simp [h]
    tauto

theorem listIterations_under (s : MemoryStore) :
    (s.under benchmark tool).listIterations benchmark tool = s.listIterations benchmark tool := by
  simp [listIterations, under, rowsOf, IterationRecord.owner, List.filter_filter]

theorem listPartitions_under (s : MemoryStore) (iteration : UInt32) :
    (s.under benchmark tool).listPartitions benchmark tool iteration =
      s.listPartitions benchmark tool iteration := by
  have hrows : (s.under benchmark tool).partitions.filter
      (fun r => (r.benchmark, r.tool, r.iteration) = (benchmark, tool, iteration)) =
        s.partitions.filter
          (fun r => (r.benchmark, r.tool, r.iteration) = (benchmark, tool, iteration)) := by
    rw [show (s.under benchmark tool).partitions =
      s.partitions.filter (·.owner = (benchmark, tool)) from rfl, List.filter_filter]
    refine List.filter_congr fun r _ => ?_
    simp only [PartitionRecord.owner, Prod.mk.injEq, ← Bool.decide_and]
    exact decide_eq_decide.mpr (by tauto)
  rw [listPartitions, listPartitions, hrows]

theorem listTimes_under (s : MemoryStore) :
    (s.under benchmark tool).listTimes benchmark tool = s.listTimes benchmark tool := by
  simp [listTimes, under, rowsOf, TimeRecord.owner, List.filter_filter]

end

end MemoryStore

end Regression
