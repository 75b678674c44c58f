import Regression.Proofs.Computation
import Regression.Proofs.Store.Columns
import Regression.Proofs.Store.Rows
import Regression.Store.Basic

/-!
# Relational stores as stores in memory

Four tables hold the same as the four lists of a store in memory: `RelationalStore.ofMemory` is the
relational store with the rows of these records, in the same order. Writes to it are writes to the
lists, and what is read from it are the records.

* `RelationalStore.write_ofMemory`: a write does the same to both, and is refused by both.
* `RelationalStore.getRun_ofMemory`, `getIteration_ofMemory`, `listIterations_ofMemory`,
  `listPartitions_ofMemory`, `listTimes_ofMemory`: every reading decodes, to the same records in
  the same order.
* `ResultStore.Holds.write`: a store of either kind goes on to hold what was put into it.
-/

namespace Regression

/-! ## Tables of records -/

namespace Table

section

variable {α κ : Type} [DecidableEq κ] {key : α → κ} {toRow : α → Row} {t : Table}

/-- The table with the rows of some records. -/
def holding (t : Table) (toRow : α → Row) (records : List α) : Table :=
  { t with rows := records.map toRow }

/-- Records have the same key columns just when they have the same key. -/
def Keyed (t : Table) (key : α → κ) (toRow : α → Row) : Prop :=
  ∀ r r', t.key (toRow r) = t.key (toRow r') ↔ key r = key r'

/-- A condition on columns says something about the records. -/
def Selects (toRow : α → Row) (condition : Row) (p : α → Bool) : Prop :=
  ∀ r, agrees (toRow r) condition = p r

theorem insert_holding (hkey : t.Keyed key toRow) {record : α} (records : List α)
    (hmissing : t.missing? (toRow record) = none) :
    (t.holding toRow records).insert (toRow record) =
      .ok (t.holding toRow (putUnder key record records)) := by
  have hrows : (records.map toRow).filter (t.key · ≠ t.key (toRow record)) ++ [toRow record] =
      (putUnder key record records).map toRow := by
    have hcondition : (fun r => decide (t.key (toRow r) ≠ t.key (toRow record))) =
        fun r => decide (key r ≠ key record) :=
      funext fun r => decide_eq_decide.mpr (not_congr (hkey r record))
    rw [putUnder, List.map_append, List.filter_map, List.map_singleton]
    show (records.filter fun r => decide (t.key (toRow r) ≠ t.key (toRow record))).map toRow ++ _ =
      _
    rw [hcondition]
  have hinserted : (t.holding toRow records).insert (toRow record) = .ok { t with
      rows := (records.map toRow).filter (t.key · ≠ t.key (toRow record)) ++ [toRow record] } := by
    have hpresent : (t.holding toRow records).missing? (toRow record) = none := hmissing
    rw [Table.insert, hpresent]
    rfl
  rw [hinserted, hrows]
  rfl

theorem delete_holding {condition : Row} {p : α → Bool} (h : Selects toRow condition p)
    (records : List α) :
    (t.holding toRow records).delete condition = t.holding toRow (records.filter (!p ·)) := by
  have hrows : (records.map toRow).filter (!agrees · condition) =
      (records.filter (!p ·)).map toRow := by
    rw [List.filter_map]
    congr 2
    ext r
    show (!agrees (toRow r) condition) = !p r
    rw [h r]
  show { t with rows := (records.map toRow).filter (!agrees · condition) } = _
  rw [hrows]
  rfl

theorem find_holding {condition : Row} {p : α → Bool} (h : Selects toRow condition p)
    (columns : List String) (records : List α) :
    (t.holding toRow records).find columns condition =
      (records.filter p).map fun r => (toRow r).select columns := by
  have hcondition : (agrees · condition) ∘ toRow = p := funext h
  show ((records.map toRow).filter (agrees · condition)).map (Row.select columns) = _
  rw [List.filter_map, hcondition, List.map_map]
  rfl

/-- The rows of a reading that has an order are the rows of the records in their order. -/
theorem find_mergeSort_holding {condition : Row} {p : α → Bool} (h : Selects toRow condition p)
    {columns order : List String} {le : α → α → Bool} (records : List α)
    (hle : ∀ r r', le r r' =
      Row.le order ((toRow r).select columns) ((toRow r').select columns)) :
    ((t.holding toRow records).find columns condition).mergeSort (Row.le order) =
      ((records.filter p).mergeSort le).map fun r => (toRow r).select columns := by
  rw [find_holding h]
  exact (List.map_mergeSort fun r _ r' _ => hle r r').symm

end

end Table

/-- Records whose rows can all be decoded. -/
theorem mapM_map_eq_ok {α β γ ε : Type} {toRow : α → β} {ofRow : β → Except ε γ} {g : α → γ}
    {records : List α} (h : ∀ a ∈ records, ofRow (toRow a) = .ok (g a)) :
    (records.map toRow).mapM ofRow = .ok (records.map g) := by
  induction records with
  | nil => rfl
  | cons a as ih =>
    obtain ⟨ha, has⟩ := List.forall_mem_cons.mp h
    rw [List.map_cons, List.mapM_cons, ha, ih has]
    rfl

/-! ## The store -/

namespace RelationalStore

/-- The relational store that holds the records of a store in memory. -/
def ofMemory (m : MemoryStore) : RelationalStore where
  runs := empty.runs.holding RunRecord.toRow m.runs
  iterations := empty.iterations.holding IterationRecord.toRow m.iterations
  partitions := empty.partitions.holding PartitionRecord.toRow m.partitions
  times := empty.times.holding TimeRecord.toRow m.times

theorem ofMemory_empty : ofMemory .empty = empty := rfl

/-! ### Keys and conditions -/

theorem keyed_runs : empty.runs.Keyed RunRecord.key RunRecord.toRow := by
  intro r r'
  show [Value.text r.benchmark, .text r.tool] = [.text r'.benchmark, .text r'.tool] ↔ _
  simp [RunRecord.key]

theorem ofUInt32_eq_iff {n n' : UInt32} : Value.ofUInt32 n = .ofUInt32 n' ↔ n = n' := by
  constructor
  · intro h
    injection h with h
    exact UInt32.toNat_inj.mp (by omega)
  · intro h
    rw [h]

theorem keyed_iterations : empty.iterations.Keyed IterationRecord.key IterationRecord.toRow := by
  intro r r'
  show [Value.text r.benchmark, .text r.tool, .ofUInt32 r.iteration] =
    [.text r'.benchmark, .text r'.tool, .ofUInt32 r'.iteration] ↔ _
  simp [IterationRecord.key, ofUInt32_eq_iff]

theorem keyed_partitions : empty.partitions.Keyed PartitionRecord.key PartitionRecord.toRow := by
  intro r r'
  show [Value.text r.benchmark, .text r.tool, .ofUInt32 r.iteration, .ofUInt32 r.partition] =
    [.text r'.benchmark, .text r'.tool, .ofUInt32 r'.iteration, .ofUInt32 r'.partition] ↔ _
  simp [PartitionRecord.key, ofUInt32_eq_iff]

theorem keyed_times : empty.times.Keyed TimeRecord.key TimeRecord.toRow := by
  intro r r'
  show [Value.text r.benchmark, .text r.tool, .text r.topic, .text r.task] =
    [.text r'.benchmark, .text r'.tool, .text r'.topic, .text r'.task] ↔ _
  simp [TimeRecord.key]

section

variable {α : Type} {toRow : α → Row} {benchmark tool : String}

/-- The condition on the rows of a run is about the owners of the records. -/
theorem selects_ofRun (owner : α → String × String)
    (hbenchmark : ∀ r, (toRow r).value "benchmark" = .text (owner r).1)
    (htool : ∀ r, (toRow r).value "tool" = .text (owner r).2) :
    Table.Selects toRow (ofRun benchmark tool) fun r => owner r = (benchmark, tool) := by
  intro r
  show (decide ((toRow r).value "benchmark" = .text benchmark) &&
    (decide ((toRow r).value "tool" = .text tool) && true)) = _
  rw [hbenchmark, htool, Bool.and_true, ← Bool.decide_and]
  refine decide_eq_decide.mpr ?_
  simp [Prod.ext_iff]

theorem selects_ofIteration (owner : α → String × String) (iteration : α → UInt32)
    (hbenchmark : ∀ r, (toRow r).value "benchmark" = .text (owner r).1)
    (htool : ∀ r, (toRow r).value "tool" = .text (owner r).2)
    (hiteration : ∀ r, (toRow r).value "iteration" = .ofUInt32 (iteration r)) {i : UInt32} :
    Table.Selects toRow (ofIteration benchmark tool i)
      fun r => ((owner r).1, (owner r).2, iteration r) = (benchmark, tool, i) := by
  intro r
  show (decide ((toRow r).value "benchmark" = .text benchmark) &&
    (decide ((toRow r).value "tool" = .text tool) &&
      (decide ((toRow r).value "iteration" = .ofUInt32 i) && true))) = _
  rw [hbenchmark, htool, hiteration, Bool.and_true, ← Bool.decide_and, ← Bool.decide_and]
  refine decide_eq_decide.mpr ?_
  simp [ofUInt32_eq_iff]

end

theorem runs_select (benchmark tool : String) :
    Table.Selects RunRecord.toRow (ofRun benchmark tool) fun r => r.owner = (benchmark, tool) :=
  selects_ofRun RunRecord.owner (fun _ => rfl) fun _ => rfl

theorem iterations_select (benchmark tool : String) :
    Table.Selects IterationRecord.toRow (ofRun benchmark tool)
      fun r => r.owner = (benchmark, tool) :=
  selects_ofRun IterationRecord.owner (fun _ => rfl) fun _ => rfl

theorem partitions_select (benchmark tool : String) :
    Table.Selects PartitionRecord.toRow (ofRun benchmark tool)
      fun r => r.owner = (benchmark, tool) :=
  selects_ofRun PartitionRecord.owner (fun _ => rfl) fun _ => rfl

theorem times_select (benchmark tool : String) :
    Table.Selects TimeRecord.toRow (ofRun benchmark tool) fun r => r.owner = (benchmark, tool) :=
  selects_ofRun TimeRecord.owner (fun _ => rfl) fun _ => rfl

theorem iteration_selects (benchmark tool : String) (i : UInt32) :
    Table.Selects IterationRecord.toRow (ofIteration benchmark tool i)
      fun r => (r.benchmark, r.tool, r.iteration) = (benchmark, tool, i) :=
  selects_ofIteration IterationRecord.owner IterationRecord.iteration (fun _ => rfl) (fun _ => rfl)
    fun _ => rfl

theorem iteration_partitions_select (benchmark tool : String) (i : UInt32) :
    Table.Selects PartitionRecord.toRow (ofIteration benchmark tool i)
      fun r => (r.benchmark, r.tool, r.iteration) = (benchmark, tool, i) :=
  selects_ofIteration PartitionRecord.owner PartitionRecord.iteration (fun _ => rfl) (fun _ => rfl)
    fun _ => rfl

/-! ### Writing -/

theorem ofReal_ne_null {x : Binary64} (h : x.isNaN = false) : Value.ofReal x ≠ .null := by
  have hnan : ¬x.isNaN = true := by simp [h]
  unfold Value.ofReal
  rw [if_neg hnan]
  split
  · simp
  · simp

theorem missing?_time {r : TimeRecord} (h : r.runtime.isNaN = false) :
    empty.times.missing? r.toRow = none := by
  have hvalue : r.toRow.value "runtime" = .ofReal r.runtime := rfl
  refine List.find?_eq_none.mpr fun column hcolumn => ?_
  rw [List.mem_singleton.mp hcolumn, hvalue]
  simp [ofReal_ne_null h]

/-- A write that is carried out does the same to tables and lists. -/
theorem carryOut_ofMemory {m : MemoryStore} {w : StoreWrite} (hvalid : w.validate = .ok ())
    (htimed : ∀ r, w = .time r → r.runtime.isNaN = false) :
    (ofMemory m).write w = .ok (ofMemory (m.put w)) := by
  unfold write
  rw [hvalid]
  cases w with
  | run r =>
    show (do return { ofMemory m with runs := ← (ofMemory m).runs.insert r.toRow }) = _
    rw [show (ofMemory m).runs.insert r.toRow = _ from Table.insert_holding keyed_runs m.runs rfl]
    rfl
  | iteration r =>
    show (do return { ofMemory m with iterations := ← (ofMemory m).iterations.insert r.toRow }) = _
    rw [show (ofMemory m).iterations.insert r.toRow = _ from
      Table.insert_holding keyed_iterations m.iterations rfl]
    rfl
  | partition r =>
    show (do return { ofMemory m with partitions := ← (ofMemory m).partitions.insert r.toRow }) = _
    rw [show (ofMemory m).partitions.insert r.toRow = _ from
      Table.insert_holding keyed_partitions m.partitions rfl]
    rfl
  | time r =>
    show (do return { ofMemory m with times := ← (ofMemory m).times.insert r.toRow }) = _
    rw [show (ofMemory m).times.insert r.toRow = _ from
      Table.insert_holding keyed_times m.times (missing?_time (htimed r rfl))]
    rfl
  | deleteRun benchmark tool =>
    have hruns : (ofMemory m).runs.delete (ofRun benchmark tool) = _ :=
      Table.delete_holding (runs_select benchmark tool) m.runs
    have hiterations : (ofMemory m).iterations.delete (ofRun benchmark tool) = _ :=
      Table.delete_holding (iterations_select benchmark tool) m.iterations
    have hpartitions : (ofMemory m).partitions.delete (ofRun benchmark tool) = _ :=
      Table.delete_holding (partitions_select benchmark tool) m.partitions
    have htimes : (ofMemory m).times.delete (ofRun benchmark tool) = _ :=
      Table.delete_holding (times_select benchmark tool) m.times
    show Except.ok (RelationalStore.mk ((ofMemory m).runs.delete (ofRun benchmark tool))
      ((ofMemory m).iterations.delete (ofRun benchmark tool))
      ((ofMemory m).partitions.delete (ofRun benchmark tool))
      ((ofMemory m).times.delete (ofRun benchmark tool))) = _
    rw [hruns, hiterations, hpartitions, htimes]
    simp only [← decide_not]
    rfl

/-- A write does the same to tables and lists, and is refused by both. -/
theorem write_ofMemory {m : MemoryStore} {w : StoreWrite}
    (htimed : ∀ r, w = .time r → r.runtime.isNaN = false) :
    (ofMemory m).write w = (m.write w).map ofMemory := by
  cases hvalid : w.validate with
  | ok =>
    rw [carryOut_ofMemory hvalid htimed]
    unfold MemoryStore.write
    rw [hvalid]
    rfl
  | error e =>
    unfold write MemoryStore.write
    rw [hvalid]
    rfl

/-! ### Reading -/

theorem getRun_ofMemory (m : MemoryStore) (benchmark tool : String) :
    (ofMemory m).getRun benchmark tool =
      .ok ((m.getRun benchmark tool).map RunRecord.settled) := by
  have hrows : (ofMemory m).runs.find RunRecord.columns (ofRun benchmark tool) = _ :=
    Table.find_holding (runs_select benchmark tool) RunRecord.columns m.runs
  have hrun : m.getRun benchmark tool =
      (m.runs.filter fun r => r.owner = (benchmark, tool)).head? := by
    rw [List.head?_filter]
    rfl
  unfold getRun
  rw [hrows, hrun]
  cases m.runs.filter fun r => r.owner = (benchmark, tool) with
  | nil => rfl
  | cons r rs =>
    show (RunRecord.ofRow (r.toRow.select RunRecord.columns)).map some = .ok (some r.settled)
    rw [r.ofRow_toRow]
    rfl

theorem getIteration_ofMemory (m : MemoryStore) (benchmark tool : String) (iteration : UInt32) :
    (ofMemory m).getIteration benchmark tool iteration =
      .ok ((m.getIteration benchmark tool iteration).map IterationRecord.settled) := by
  have hrows : (ofMemory m).iterations.find IterationRecord.columns
      (ofIteration benchmark tool iteration) = _ :=
    Table.find_holding (iteration_selects benchmark tool iteration) IterationRecord.columns
      m.iterations
  have hiteration : m.getIteration benchmark tool iteration = (m.iterations.filter
      fun r => (r.benchmark, r.tool, r.iteration) = (benchmark, tool, iteration)).head? := by
    rw [List.head?_filter]
    rfl
  unfold getIteration
  rw [hrows, hiteration]
  cases m.iterations.filter
    fun r => (r.benchmark, r.tool, r.iteration) = (benchmark, tool, iteration) with
  | nil => rfl
  | cons r rs =>
    show (IterationRecord.ofRow (r.toRow.select IterationRecord.columns)).map some = _
    rw [r.ofRow_toRow]
    rfl

/-- Numbers in a column are ordered as numbers. -/
theorem rowLe_ofUInt32 {column : String} {row row' : Row} {n n' : UInt32} [Decidable (n ≤ n')]
    (hrow : row.value column = .ofUInt32 n) (hrow' : row'.value column = .ofUInt32 n') :
    Row.le [column] row row' = decide (n ≤ n') := by
  have hle : (Value.ofUInt32 n).le (.ofUInt32 n') = decide (n ≤ n') := by
    show decide ((n.toNat : Int) ≤ n'.toNat) = decide (n ≤ n')
    refine decide_eq_decide.mpr ?_
    rw [UInt32.le_iff_toNat_le]
    omega
  show (if row.value column = row'.value column then true
    else (row.value column).le (row'.value column)) = _
  rw [hrow, hrow', hle]
  by_cases h : n = n'
  · simp [h]
  · rw [if_neg (mt ofUInt32_eq_iff.mp h)]

theorem listIterations_ofMemory (m : MemoryStore) (benchmark tool : String) :
    (ofMemory m).listIterations benchmark tool =
      .ok ((m.listIterations benchmark tool).map IterationRecord.settled) := by
  have hrows : ((ofMemory m).iterations.find IterationRecord.columns
      (ofRun benchmark tool)).mergeSort (Row.le ["iteration"]) =
        (m.listIterations benchmark tool).map fun r => r.toRow.select IterationRecord.columns := by
    unfold MemoryStore.listIterations
    exact Table.find_mergeSort_holding (iterations_select benchmark tool) m.iterations
      fun r r' => (rowLe_ofUInt32 rfl rfl).symm
  show List.mapM IterationRecord.ofRow _ = _
  rw [hrows]
  exact mapM_map_eq_ok fun r _ => r.ofRow_toRow

theorem listPartitions_ofMemory (m : MemoryStore) (benchmark tool : String) (iteration : UInt32) :
    (ofMemory m).listPartitions benchmark tool iteration =
      .ok ((m.listPartitions benchmark tool iteration).map PartitionRecord.settled) := by
  have hrows : ((ofMemory m).partitions.find PartitionRecord.columns
      (ofIteration benchmark tool iteration)).mergeSort (Row.le ["partition_index"]) =
        (m.listPartitions benchmark tool iteration).map
          fun r => r.toRow.select PartitionRecord.columns := by
    unfold MemoryStore.listPartitions
    exact Table.find_mergeSort_holding (iteration_partitions_select benchmark tool iteration)
      m.partitions fun r r' => (rowLe_ofUInt32 rfl rfl).symm
  show List.mapM PartitionRecord.ofRow _ = _
  rw [hrows]
  exact mapM_map_eq_ok fun r _ => r.ofRow_toRow

theorem lt_iff_le_of_ne {s t : String} (h : s ≠ t) : s < t ↔ s ≤ t := by
  constructor
  · intro hlt
    exact String.not_lt.mp (String.lt_asymm hlt)
  · intro hle
    by_contra hlt
    exact h (String.le_antisymm hle (String.not_lt.mp hlt))

/-- Times are ordered by the columns of their steps, topics and tasks. -/
theorem timeLe_eq (r r' : TimeRecord) : MemoryStore.timeLe r r' =
    Row.le ["step", "topic", "task"] (r.toRow.select TimeRecord.columns)
      (r'.toRow.select TimeRecord.columns) := by
  have hcolumns : Row.le ["step", "topic", "task"] (r.toRow.select TimeRecord.columns)
      (r'.toRow.select TimeRecord.columns) =
        if Value.ofUInt32 r.step = .ofUInt32 r'.step then
          if Value.text r.topic = .text r'.topic then
            if Value.text r.task = .text r'.task then true else decide (r.task ≤ r'.task)
          else decide (r.topic ≤ r'.topic)
        else decide ((r.step.toNat : Int) ≤ r'.step.toNat) := rfl
  have hstep (h : r.step ≠ r'.step) : r.step < r'.step ↔ (r.step.toNat : Int) ≤ r'.step.toNat := by
    have hne : r.step.toNat ≠ r'.step.toNat := mt UInt32.toNat_inj.mp h
    rw [UInt32.lt_iff_toNat_lt]
    omega
  rw [hcolumns, MemoryStore.timeLe]
  simp only [ofUInt32_eq_iff, Value.text.injEq]
  by_cases h : r.step = r'.step
  · by_cases h' : r.topic = r'.topic
    · by_cases h'' : r.task = r'.task
      · simp [h, h', h'']
      · simp [h, h', h'']
    · simp [h, h', lt_iff_le_of_ne h']
  · simp [h, hstep h]

theorem listTimes_ofMemory {m : MemoryStore} (htimed : ∀ r ∈ m.times, r.runtime.isNaN = false)
    (benchmark tool : String) :
    (ofMemory m).listTimes benchmark tool =
      .ok ((m.listTimes benchmark tool).map TimeRecord.settled) := by
  have hrows : ((ofMemory m).times.find TimeRecord.columns
      (ofRun benchmark tool)).mergeSort (Row.le ["step", "topic", "task"]) =
        (m.listTimes benchmark tool).map fun r => r.toRow.select TimeRecord.columns :=
    Table.find_mergeSort_holding (times_select benchmark tool) m.times timeLe_eq
  have hlisted : ∀ r ∈ m.listTimes benchmark tool, r.runtime.isNaN = false := by
    intro r hr
    exact htimed r (List.mem_of_mem_filter (List.mem_mergeSort.mp hr))
  show List.mapM TimeRecord.ofRow _ = _
  rw [hrows]
  exact mapM_map_eq_ok fun r hr => TimeRecord.ofRow_toRow (hlisted r hr)

end RelationalStore

/-! ## Stores of both kinds -/

namespace ResultStore

/-- What a store holds, as a store in memory. A relational store has only times that are numbers. -/
inductive Holds : ResultStore → MemoryStore → Prop
  | memory (m : MemoryStore) : Holds (.memory m) m
  | relational {m : MemoryStore} (htimed : ∀ r ∈ m.times, r.runtime.isNaN = false) :
    Holds (.relational (.ofMemory m)) m

variable {s s' : ResultStore} {m : MemoryStore}

theorem Holds.relational_empty : (ResultStore.relational .empty).Holds .empty :=
  .relational (m := .empty) fun _ h => nomatch h

theorem isNaN_eq_false_of_write {m : MemoryStore} {r : TimeRecord} {t : RelationalStore}
    (h : (RelationalStore.ofMemory m).write (.time r) = .ok t) : r.runtime.isNaN = false := by
  by_contra hnan
  have hnan : r.runtime.isNaN = true := by simpa using hnan
  have hnull : r.toRow.value "runtime" = .null := by
    show Value.ofReal r.runtime = .null
    unfold Value.ofReal
    rw [if_pos hnan]
  have hmissing : (RelationalStore.ofMemory m).times.missing? r.toRow = some "runtime" := by
    show List.find? (fun column => r.toRow.value column = .null) ["runtime"] = some "runtime"
    rw [List.find?_cons_of_pos (by simpa using hnull)]
  have hinsert : (RelationalStore.ofMemory m).times.insert r.toRow =
      .error (.nullColumn "times" "runtime") := by
    unfold Table.insert
    rw [hmissing]
    rfl
  have hwrite : (RelationalStore.ofMemory m).write (.time r) =
      (do return { RelationalStore.ofMemory m with
        times := ← (RelationalStore.ofMemory m).times.insert r.toRow }) := rfl
  rw [hwrite, hinsert] at h
  cases h

theorem eq_put_of_write {m m' : MemoryStore} {w : StoreWrite} (h : m.write w = .ok m') :
    w.validate = .ok () ∧ m' = m.put w := by
  unfold MemoryStore.write at h
  cases hvalid : w.validate with
  | error e =>
    rw [hvalid] at h
    cases h
  | ok =>
    rw [hvalid] at h
    injection h with h
    exact ⟨rfl, h.symm⟩

theorem isNaN_eq_false_of_mem_put {m : MemoryStore} {w : StoreWrite}
    (htimed : ∀ r ∈ m.times, r.runtime.isNaN = false)
    (hw : ∀ r, w = .time r → r.runtime.isNaN = false) :
    ∀ r ∈ (m.put w).times, r.runtime.isNaN = false := by
  intro r hr
  cases w with
  | run | iteration | partition => exact htimed r hr
  | time row =>
    rcases List.mem_append.mp hr with hr | hr
    · exact htimed r (List.mem_of_mem_filter hr)
    · rw [List.mem_singleton.mp hr]
      exact hw row rfl
  | deleteRun => exact htimed r (List.mem_of_mem_filter hr)

/-- A write that a store takes is valid, and puts the same into the store in memory. -/
theorem Holds.write {w : StoreWrite} (holds : s.Holds m) (h : s.write w = .ok s') :
    w.validate = .ok () ∧ s'.Holds (m.put w) := by
  cases holds with
  | memory =>
    obtain ⟨m', hm', rfl⟩ := exists_of_map_eq_ok h
    obtain ⟨hvalid, rfl⟩ := eq_put_of_write hm'
    exact ⟨hvalid, .memory _⟩
  | relational htimed =>
    obtain ⟨t, ht, rfl⟩ := exists_of_map_eq_ok h
    have hw : ∀ r, w = .time r → r.runtime.isNaN = false := by
      rintro r rfl
      exact isNaN_eq_false_of_write ht
    rw [RelationalStore.write_ofMemory hw] at ht
    obtain ⟨m', hm', rfl⟩ := exists_of_map_eq_ok ht
    obtain ⟨hvalid, rfl⟩ := eq_put_of_write hm'
    exact ⟨hvalid, .relational (isNaN_eq_false_of_mem_put htimed hw)⟩

end ResultStore

end Regression
