import Mathlib.Data.List.Pairwise
import Regression.Proofs.Run.Invariants
import Regression.Proofs.Run.Pieces

/-!
# What a run leaves in a store

A run first removes what is kept about it, so that the store holds nothing about it in the end but
what was written since. The rows of a run, of its iterations and of their partitions are read off
its accounts.

* `Run.Runs.accounts`: a run that ends well has an account of each iteration.
* `Account.rows`: the rows of the partitions of an iteration, those with a verdict first.
* `Run.listPartitions_putAll`, `Run.listIterations_putAll`, `Run.getRun_putAll`: what is read.
-/

namespace Regression

open History

/-! ## Sorted rows -/

/-- Rows are listed by a number that is different for all of them. -/
theorem mergeSort_eq_of_perm {α : Type} (number : α → UInt32) {rows rows' : List α}
    (hperm : rows.Perm rows') (hascending : (rows'.map number).Pairwise (· < ·)) :
    rows.mergeSort (fun r r' => number r ≤ number r') = rows' := by
  have hsorted := sorted_mergeSort number rows
  have hlt : rows'.Pairwise fun r r' => number r < number r' := List.pairwise_map.mp hascending
  have hnodup : (rows'.map number).Nodup := hascending.imp fun h => UInt32.ne_of_lt h
  have hsorted' : rows'.Pairwise fun r r' => number r ≤ number r' := hlt.imp UInt32.le_of_lt
  refine List.Perm.eq_of_pairwise ?_ hsorted hsorted' ((List.mergeSort_perm _ _).trans hperm)
  intro r r' hr hr' hle hle'
  have hmem : r ∈ rows' := hperm.mem_iff.mp ((List.mergeSort_perm _ _).mem_iff.mp hr)
  exact List.inj_on_of_nodup_map hnodup hmem hr' (UInt32.le_antisymm hle hle')

/-- What a list has under one key is what the item with this key has. -/
theorem flatMap_ite_eq {α β κ : Type} [DecidableEq κ] {key : α → κ} {items : List α}
    (hnodup : (items.map key).Nodup) {a : α} (ha : a ∈ items) (f : α → List β) :
    items.flatMap (fun x => if key x = key a then f x else []) = f a := by
  induction items with
  | nil => cases ha
  | cons b items ih =>
    obtain ⟨hb, hitems⟩ := List.nodup_cons.mp hnodup
    have hrest (h : key b = key a) :
        items.flatMap (fun x => if key x = key a then f x else []) = [] := by
      rw [List.flatMap_eq_nil_iff]
      intro x hx
      have hne : key x ≠ key a := fun hkey => hb (h ▸ hkey ▸ List.mem_map_of_mem hx)
      rw [if_neg hne]
    rw [List.flatMap_cons]
    rcases List.mem_cons.mp ha with rfl | ha
    · rw [if_pos rfl, hrest rfl, List.append_nil]
    · have hne : key b ≠ key a := fun h => hb (h ▸ List.mem_map_of_mem ha)
      rw [if_neg hne, ih hitems ha, List.nil_append]

namespace Run

variable {ctx : RunContext}

/-! ## Accounts -/

namespace Account

/-- The rows that say that there are partitions. -/
def indexRecords (ctx : RunContext) (a : Account) (partitions : List Partition) :
    List PartitionRecord :=
  partitions.map fun p => .indexOnly ctx.benchmark ctx.tool a.number p.index

/-- The rows of partitions with their verdicts. -/
def verdictRecords (ctx : RunContext) (a : Account) : List PartitionRecord :=
  a.judged.map fun j => j.2.record ctx.benchmark ctx.tool a.number

/-- The rows that are left: those with a verdict, and those of all other partitions. -/
def rows (ctx : RunContext) (a : Account) : List PartitionRecord :=
  a.verdictRecords ctx ++ a.indexRecords ctx (a.partitions.drop a.judged.length)

/-- The classified rows are those with a verdict. -/
theorem filter_rows (ctx : RunContext) (a : Account) :
    (a.rows ctx).filter (·.isClassified) = a.verdictRecords ctx := by
  have hverdicts : (a.verdictRecords ctx).filter (·.isClassified) = a.verdictRecords ctx :=
    List.filter_eq_self.mpr (List.forall_mem_map.mpr fun _ _ => rfl)
  have hindices : (a.indexRecords ctx (a.partitions.drop a.judged.length)).filter
      (·.isClassified) = [] :=
    List.filter_eq_nil_iff.mpr (List.forall_mem_map.mpr fun _ _ => by
      simp [PartitionRecord.indexOnly, PartitionRecord.isClassified])
  rw [rows, List.filter_append, hverdicts, hindices, List.append_nil]

/-- The indices grow, and the verdicts are about the first partitions. -/
structure WellFormed (ctx : RunContext) (a : Account) : Prop where
  ascending : (a.partitions.map (·.index)).Pairwise (· < ·)
  judged : a.judged.map (·.1) = a.partitions.take a.judged.length
  index : ∀ j ∈ a.judged, j.2.index = j.1.index
  key : a.record.key = (ctx.benchmark, ctx.tool, a.number)

end Account

theorem Accounted.judged_eq {h : History} {a : Account} (hacc : Accounted ctx h a) :
    a.judged.map (·.1) = a.partitions.take
      (h.finishedBatches * (ctx.settings.solver.parallelism.toNat - 1 + 1)) := by
  rw [hacc.batches, batches_take_flatten]

theorem Accounted.wellFormed {h : History} {a : Account} (hacc : Accounted ctx h a) :
    a.WellFormed ctx where
  ascending := by
    rw [hacc.partitions]
    exact h.accepted_ascending
  judged := by
    have hlength := congrArg List.length hacc.judged_eq
    rw [List.length_map, List.length_take] at hlength
    rw [hacc.judged_eq, hlength, List.take_eq_take_iff]
    omega
  index j hj := (hacc.analyzed.each j hj).index_eq
  key := hacc.key

namespace Account.WellFormed

variable {a : Account} (ha : a.WellFormed ctx)

include ha

theorem owner : a.record.owner = (ctx.benchmark, ctx.tool) := by
  have hkey := ha.key
  simp only [IterationRecord.key, Prod.mk.injEq] at hkey
  rw [IterationRecord.owner, hkey.1, hkey.2.1]

theorem map_verdictRecords : (a.verdictRecords ctx).map (·.partition) =
    (a.partitions.take a.judged.length).map (·.index) := by
  rw [← ha.judged, List.map_map, verdictRecords, List.map_map]
  exact List.map_congr_left ha.index

/-- There is one row for each partition, in the order of their indices. -/
theorem map_rows : (a.rows ctx).map (·.partition) = a.partitions.map (·.index) := by
  have hindex : (a.indexRecords ctx (a.partitions.drop a.judged.length)).map (·.partition) =
      (a.partitions.drop a.judged.length).map (·.index) := by
    rw [indexRecords, List.map_map]
    rfl
  rw [rows, List.map_append, ha.map_verdictRecords, hindex, ← List.map_append,
    List.take_append_drop]

/-- The rows of an iteration are put one after the other, those with a verdict in the place of those
without. -/
theorem putRows_perm :
    (putRows PartitionRecord.key [] (a.indexRecords ctx a.partitions ++ a.verdictRecords ctx)).Perm
      (a.rows ctx) := by
  have hkeys (partitions : List Partition) :
      (a.indexRecords ctx partitions).map PartitionRecord.key =
        (partitions.map (·.index)).map fun i => (ctx.benchmark, ctx.tool, a.number, i) := by
    rw [indexRecords, List.map_map, List.map_map]
    rfl
  have hinjective : Function.Injective fun i : UInt32 => (ctx.benchmark, ctx.tool, a.number, i) :=
    fun i i' h => by simpa using h
  have hindices : (a.partitions.map (·.index)).Nodup := ha.ascending.imp fun h => UInt32.ne_of_lt h
  have hnodup : ((a.indexRecords ctx a.partitions).map PartitionRecord.key).Nodup := by
    rw [hkeys]
    exact hindices.map hinjective
  have hverdicts : (a.verdictRecords ctx).map PartitionRecord.key =
      (a.indexRecords ctx (a.partitions.take a.judged.length)).map PartitionRecord.key := by
    rw [hkeys, ← ha.map_verdictRecords, verdictRecords, List.map_map, List.map_map, List.map_map]
    rfl
  have hsplit : a.indexRecords ctx a.partitions =
      a.indexRecords ctx (a.partitions.take a.judged.length) ++
        a.indexRecords ctx (a.partitions.drop a.judged.length) := by
    rw [indexRecords, indexRecords, indexRecords, ← List.map_append, List.take_append_drop]
  rw [hsplit, List.map_append, List.nodup_append] at hnodup
  obtain ⟨htaken, -, hdisjoint⟩ := hnodup
  have hindex : putRows PartitionRecord.key [] (a.indexRecords ctx a.partitions) =
      a.indexRecords ctx a.partitions := by
    refine putRows_nil_of_nodup ?_
    rw [hkeys]
    exact hindices.map hinjective
  have hrows : putRows PartitionRecord.key (a.indexRecords ctx a.partitions)
      (a.verdictRecords ctx) =
        a.indexRecords ctx (a.partitions.drop a.judged.length) ++ a.verdictRecords ctx := by
    rw [hsplit]
    refine putRows_of_replaced (hverdicts ▸ htaken) ?_ ?_
    · intro r hr
      rw [hverdicts]
      exact List.mem_map_of_mem hr
    · intro r hr hmem
      rw [hverdicts] at hmem
      exact hdisjoint _ hmem _ (List.mem_map_of_mem hr) rfl
  rw [putRows_append, hindex, hrows]
  exact List.perm_append_comm

end Account.WellFormed

/-- There is one row for each partition that was accepted. -/
theorem Accounted.map_rows {h : History} {a : Account} (hacc : Accounted ctx h a) :
    (a.rows ctx).map (·.partition) = h.accepted.map (·.index) := by
  rw [hacc.wellFormed.map_rows, hacc.partitions]

theorem Accounted.length_rows {h : History} {a : Account} (hacc : Accounted ctx h a) :
    (a.rows ctx).length = h.accepted.length := by
  have hlength := congrArg List.length hacc.map_rows
  rwa [List.length_map, List.length_map] at hlength

/-- The row of an iteration counts those of its partitions, as far as the count goes. -/
theorem Accounted.partitionCount_eq {h : History} {a : Account} (hacc : Accounted ctx h a)
    (hsize : h.accepted.length < UInt32.size) :
    a.record.partitionCount.map (·.toNat) = some (a.rows ctx).length := by
  have hcount : (UInt32.ofNat h.accepted.length).toNat = h.accepted.length :=
    UInt32.toNat_ofNat_of_lt' hsize
  rw [hacc.length_rows, hacc.partitionCount, hacc.partitions, Option.map_some, hcount]

/-! ## What is read -/

/-- What is written about a run after what was kept about it has been removed. -/
def writesOf (ctx : RunContext) (first last : RunRecord) (accounts : List Account)
    (times : List TimeRecord) : List StoreWrite :=
  .run first :: (accounts.flatMap (·.writes ctx) ++ .run last :: times.map .time)

section

variable {first last : RunRecord} {accounts : List Account} {times : List TimeRecord}

theorem filterMap_run?_writesOf :
    (writesOf ctx first last accounts times).filterMap StoreWrite.run? = [first, last] := by
  have haccount (a : Account) : (a.writes ctx).filterMap StoreWrite.run? = [] := by
    simp [Account.writes, List.filterMap_map, List.filterMap_cons, Function.comp_def, startedRow,
      indexRow, verdictRow, StoreWrite.run?]
  simp [writesOf, List.filterMap_flatMap, haccount, StoreWrite.run?, List.filterMap_map,
    Function.comp_def]

theorem filterMap_iteration?_writesOf :
    (writesOf ctx first last accounts times).filterMap StoreWrite.iteration? =
      accounts.flatMap fun a => [.started ctx.benchmark ctx.tool a.number, a.record] := by
  have haccount (a : Account) : (a.writes ctx).filterMap StoreWrite.iteration? =
      [.started ctx.benchmark ctx.tool a.number, a.record] := by
    simp [Account.writes, List.filterMap_map, Function.comp_def, startedRow, indexRow, verdictRow,
      StoreWrite.iteration?]
  simp [writesOf, List.filterMap_flatMap, List.filterMap_cons, haccount, StoreWrite.iteration?,
    List.filterMap_map, Function.comp_def]

theorem filterMap_partition?_writesOf :
    (writesOf ctx first last accounts times).filterMap StoreWrite.partition? =
      accounts.flatMap fun a => a.indexRecords ctx a.partitions ++ a.verdictRecords ctx := by
  have haccount (a : Account) : (a.writes ctx).filterMap StoreWrite.partition? =
      a.indexRecords ctx a.partitions ++ a.verdictRecords ctx := by
    simp [Account.writes, List.filterMap_map, List.filterMap_cons, Function.comp_def, startedRow,
      indexRow, verdictRow, StoreWrite.partition?, Account.indexRecords, Account.verdictRecords]
  simp [writesOf, List.filterMap_flatMap, List.filterMap_cons, haccount, StoreWrite.partition?,
    List.filterMap_map, Function.comp_def]

variable (hfirst : first.owner = (ctx.benchmark, ctx.tool))
  (hlast : last.owner = (ctx.benchmark, ctx.tool)) (haccounts : ∀ a ∈ accounts, a.WellFormed ctx)
  (hnumbers : (accounts.map (·.number)).Pairwise (· < ·))
  (htimes : ∀ t ∈ times, t.owner = (ctx.benchmark, ctx.tool))

include hfirst hlast haccounts htimes

/-- Everything is written about the run itself. -/
theorem putsFor_writesOf :
    ∀ w ∈ writesOf ctx first last accounts times, w.PutsFor ctx.benchmark ctx.tool := by
  have haccount : ∀ a ∈ accounts, ∀ w ∈ a.writes ctx, w.PutsFor ctx.benchmark ctx.tool := by
    intro a ha
    refine List.forall_mem_cons.mpr ⟨rfl, List.forall_mem_append.mpr ⟨?_, ?_⟩⟩
    · exact List.forall_mem_map.mpr fun _ _ => rfl
    refine List.forall_mem_append.mpr ⟨List.forall_mem_map.mpr fun _ _ => rfl, ?_⟩
    exact List.forall_mem_singleton.mpr (haccounts a ha).owner
  refine List.forall_mem_cons.mpr ⟨hfirst, List.forall_mem_append.mpr ⟨?_, ?_⟩⟩
  · intro w hw
    obtain ⟨a, ha, hw⟩ := List.mem_flatMap.mp hw
    exact haccount a ha w hw
  · exact List.forall_mem_cons.mpr ⟨hlast, List.forall_mem_map.mpr htimes⟩

theorem getRun_putAll :
    (MemoryStore.empty.putAll (writesOf ctx first last accounts times)).getRun ctx.benchmark
      ctx.tool = some last := by
  rw [MemoryStore.putAll_eq (putsFor_writesOf hfirst hlast haccounts htimes),
    filterMap_run?_writesOf]
  have hkey : first.key = last.key := hfirst.trans hlast.symm
  have hruns : putRows RunRecord.key MemoryStore.empty.runs [first, last] = [last] :=
    putUnder_putUnder [] hkey
  have hfound : last.key = (ctx.benchmark, ctx.tool) := hlast
  simp only [MemoryStore.getRun, hruns]
  simp [hfound]

include hnumbers

theorem listIterations_putAll :
    (MemoryStore.empty.putAll (writesOf ctx first last accounts times)).listIterations
      ctx.benchmark ctx.tool = accounts.map (·.record) := by
  have hkeys : accounts.map (·.record.key) =
      (accounts.map (·.number)).map fun i => (ctx.benchmark, ctx.tool, i) := by
    rw [List.map_map]
    exact List.map_congr_left fun a ha => (haccounts a ha).key
  have hiterations : accounts.map (·.record.iteration) = accounts.map (·.number) :=
    List.map_congr_left fun a ha => congrArg (·.2.2) (haccounts a ha).key
  have hnodup : ((accounts.map (·.record)).map IterationRecord.key).Nodup := by
    rw [List.map_map]
    refine (hkeys ▸ List.Nodup.map ?_ (hnumbers.imp fun h => UInt32.ne_of_lt h) :)
    exact fun i i' h => by simpa using h
  -- The first row of an iteration is replaced by the second one.
  have hreplace (rows : List IterationRecord) : putRows IterationRecord.key rows
      (accounts.flatMap fun a => [.started ctx.benchmark ctx.tool a.number, a.record]) =
        putRows IterationRecord.key rows (accounts.map (·.record)) := by
    clear hkeys hiterations hnodup hnumbers
    induction accounts generalizing rows with
    | nil => rfl
    | cons a accounts ih =>
      obtain ⟨ha, haccounts⟩ := List.forall_mem_cons.mp haccounts
      have hkey : (IterationRecord.started ctx.benchmark ctx.tool a.number).key = a.record.key :=
        ha.key.symm
      rw [List.flatMap_cons, putRows_append, List.map_cons, putRows_cons, putRows_cons,
        putRows_nil, putRows_cons, putUnder_putUnder rows hkey]
      exact ih haccounts _
  have howned : ∀ r ∈ accounts.map (·.record), r.owner = (ctx.benchmark, ctx.tool) :=
    List.forall_mem_map.mpr fun a ha => (haccounts a ha).owner
  rw [MemoryStore.putAll_eq (putsFor_writesOf hfirst hlast haccounts htimes),
    filterMap_iteration?_writesOf, hreplace]
  have hrows : putRows IterationRecord.key MemoryStore.empty.iterations (accounts.map (·.record)) =
      accounts.map (·.record) := putRows_nil_of_nodup hnodup
  simp only [MemoryStore.listIterations, hrows]
  refine mergeSort_eq_of_perm IterationRecord.iteration ?_ ?_
  · refine List.Perm.of_eq (List.filter_eq_self.mpr fun r hr => ?_)
    exact decide_eq_true (howned r hr)
  · rw [List.map_map]
    exact hiterations ▸ hnumbers

omit hnumbers in
/-- The rows of the partitions of one iteration, before they are sorted. -/
theorem filter_partitions_putAll (i : UInt32) :
    ((MemoryStore.empty.putAll (writesOf ctx first last accounts times)).partitions.filter
      fun r => (r.benchmark, r.tool, r.iteration) = (ctx.benchmark, ctx.tool, i)) =
        putRows PartitionRecord.key [] (accounts.flatMap fun a =>
          if a.number = i then a.indexRecords ctx a.partitions ++ a.verdictRecords ctx
          else []) := by
  have hkeys (r r' : PartitionRecord) (h : r.key = r'.key) :
      decide ((r.benchmark, r.tool, r.iteration) = (ctx.benchmark, ctx.tool, i)) =
        decide ((r'.benchmark, r'.tool, r'.iteration) = (ctx.benchmark, ctx.tool, i)) := by
    simp only [PartitionRecord.key, Prod.mk.injEq] at h
    rw [h.1, h.2.1, h.2.2.1]
  have hrecords (a : Account) : (a.indexRecords ctx a.partitions ++ a.verdictRecords ctx).filter
      (fun r => (r.benchmark, r.tool, r.iteration) = (ctx.benchmark, ctx.tool, i)) =
        if a.number = i then a.indexRecords ctx a.partitions ++ a.verdictRecords ctx else [] := by
    have hkey : ∀ r ∈ a.indexRecords ctx a.partitions ++ a.verdictRecords ctx,
        (r.benchmark, r.tool, r.iteration) = (ctx.benchmark, ctx.tool, a.number) :=
      List.forall_mem_append.mpr
        ⟨List.forall_mem_map.mpr fun _ _ => rfl, List.forall_mem_map.mpr fun _ _ => rfl⟩
    split
    · next h =>
      subst h
      exact List.filter_eq_self.mpr fun r hr => decide_eq_true (hkey r hr)
    · next h =>
      refine List.filter_eq_nil_iff.mpr fun r hr => ?_
      rw [hkey r hr]
      simpa using h
  rw [MemoryStore.putAll_eq (putsFor_writesOf hfirst hlast haccounts htimes),
    filterMap_partition?_writesOf]
  have hfilter := filter_putRows hkeys [] (accounts.flatMap fun a =>
    a.indexRecords ctx a.partitions ++ a.verdictRecords ctx)
  rw [List.filter_nil, List.filter_flatMap] at hfilter
  simp only [hrecords] at hfilter
  exact hfilter

/-- The rows of an iteration are those of its account. -/
theorem listPartitions_putAll {a : Account} (ha : a ∈ accounts) :
    (MemoryStore.empty.putAll (writesOf ctx first last accounts times)).listPartitions
      ctx.benchmark ctx.tool a.number = a.rows ctx := by
  have hnodup : (accounts.map (·.number)).Nodup := hnumbers.imp fun h => UInt32.ne_of_lt h
  rw [MemoryStore.listPartitions,
    filter_partitions_putAll hfirst hlast haccounts htimes, flatMap_ite_eq hnodup ha]
  refine mergeSort_eq_of_perm PartitionRecord.partition (haccounts a ha).putRows_perm ?_
  rw [(haccounts a ha).map_rows]
  exact (haccounts a ha).ascending

omit hnumbers in
/-- There are no rows of other iterations. -/
theorem listPartitions_putAll_of_not_mem {i : UInt32} (hi : i ∉ accounts.map (·.number)) :
    (MemoryStore.empty.putAll (writesOf ctx first last accounts times)).listPartitions
      ctx.benchmark ctx.tool i = [] := by
  have hnone : (accounts.flatMap fun a => if a.number = i then
      a.indexRecords ctx a.partitions ++ a.verdictRecords ctx else []) = [] := by
    rw [List.flatMap_eq_nil_iff]
    intro a ha
    have hne : a.number ≠ i := fun h => hi (h ▸ List.mem_map_of_mem ha)
    rw [if_neg hne]
  rw [MemoryStore.listPartitions,
    filter_partitions_putAll hfirst hlast haccounts htimes, hnone, putRows_nil, List.mergeSort_nil]

end

/-! ## Whole runs -/

/-- The numbers of iterations grow while there are any. -/
theorem numbersFrom_ascending {before count : Nat} (h : before + count < UInt32.size) :
    (numbersFrom before count).Pairwise (· < ·) := by
  refine List.pairwise_map.mpr ?_
  have hlt := List.pairwise_lt_range' (s := before + 1) (n := count) 1 Nat.one_pos
  refine hlt.imp_of_mem ?_
  intro i j hi hj hij
  have hi' : i < UInt32.size := by
    rw [List.mem_range'_1] at hi
    omega
  have hj' : j < UInt32.size := by
    rw [List.mem_range'_1] at hj
    omega
  rw [UInt32.lt_iff_toNat_lt, UInt32.toNat_ofNat_of_lt' hi', UInt32.toNat_ofNat_of_lt' hj']
  exact hij

/-- Rows that were written are the last part of the events. -/
theorem PutsAll.writes_eq {rows : List StoreWrite} {es : History}
    (h : PutsAll rows es (.ok ())) : es.writes = rows := by
  generalize hr : Except.ok () = r at h
  induction h with
  | done => rfl
  | failed => cases hr
  | next _ ih => exact congrArg (_ :: ·) (ih hr)

theorem Opens.writes_eq {es : History} {run : RunRecord} (h : Opens ctx es (.ok run)) :
    es.writes = [.deleteRun ctx.benchmark ctx.tool, .run run] ∧
      run.owner = (ctx.benchmark, ctx.tool) := by
  cases h
  exact ⟨rfl, rfl⟩

theorem Looks.writes_eq {request : RunRequest} {es : History} {missing? : Option String}
    (h : Looks request es missing?) : es.writes = [] := by
  cases h <;> rfl

/-- The end of a run writes its record and its times. -/
theorem Finishes.writes_eq {run : RunRecord} {progress : Progress} {reason : StopReason}
    {es : History} {outcome : RunOutcome} (h : Finishes ctx run progress reason es (.ok outcome)) :
    ∃ (elapsed : Duration) (times : List TimeRecord),
      es.writes = .run outcome.run :: times.map .time ∧
      (∀ t ∈ times, t.owner = (ctx.benchmark, ctx.tool)) ∧
      outcome = Run.outcome (completed run progress.iterations reason elapsed) progress reason := by
  cases h with
  | @done elapsed times es owned puts =>
    exact ⟨elapsed, times, congrArg (_ :: ·) puts.writes_eq, owned, rfl⟩

/-- The accounts of a run that ended well, and what it wrote. -/
structure Runs.Accounts (ctx : RunContext) (h : History) (outcome : RunOutcome)
    (first : RunRecord) (accounts : List Account) (times : List TimeRecord) : Prop where
  records : outcome.iterations = accounts.map (·.record)
  numbers : accounts.map (·.number) = numbersFrom 0 accounts.length
  length_lt : accounts.length < UInt32.size
  pieces : List.Forall₂ (Accounted ctx) h.iterations accounts
  writes : h.writes =
    .deleteRun ctx.benchmark ctx.tool :: writesOf ctx first outcome.run accounts times
  first : first.owner = (ctx.benchmark, ctx.tool)
  times : ∀ t ∈ times, t.owner = (ctx.benchmark, ctx.tool)
  run_eq : ∃ run elapsed, run.owner = (ctx.benchmark, ctx.tool) ∧
    outcome.run = completed run outcome.iterations outcome.stopReason elapsed

/-- A run that ends well has an account of each of its iterations. -/
theorem Runs.accounts {request : RunRequest} {h : History} {outcome : RunOutcome}
    (runs : Runs ctx request h (.ok outcome)) :
    ∃ first accounts times, Runs.Accounts ctx h outcome first accounts times := by
  cases runs with
  | @missing es es' es'' run input _ opens looks finishes =>
    have hcut : (es ++ (es' ++ es'')).iterations = [] := by
      have haside : (es ++ (es' ++ es'')).Aside :=
        (Aside.of_isOutside opens.isOutside).append
          ((Aside.of_isOutside looks.isOutside).append (Aside.of_isOutside finishes.isOutside))
      rw [iterations, haside.quiet.cut_eq]
    obtain ⟨hopened, howner⟩ := opens.writes_eq
    obtain ⟨elapsed, times, hwrites, htimes, rfl⟩ := finishes.writes_eq
    refine ⟨run, [], times, rfl, rfl, by decide, ?_, ?_, howner, htimes, _, elapsed, ?_, rfl⟩
    · rw [hcut]
      exact .nil
    · rw [writes_append, writes_append, hopened, looks.writes_eq, hwrites]
      rfl
    · exact howner
  | @iterated es es' es'' es₄ run progress reason _ opens looks iterates finishes =>
    obtain ⟨accounts, haccounts, hlength⟩ :=
      iterates.accounts (Aside.of_isOutside finishes.isOutside)
    have hcut : (es ++ (es' ++ (es'' ++ es₄))).iterations = (es'' ++ es₄).iterations := by
      rw [iterations, cut_append (Aside.of_isOutside opens.isOutside).quiet.not_isPrepared,
        cut_append (Aside.of_isOutside looks.isOutside).quiet.not_isPrepared]
      rfl
    obtain ⟨hopened, howner⟩ := opens.writes_eq
    obtain ⟨elapsed, times, hwrites, htimes, rfl⟩ := finishes.writes_eq
    refine ⟨run, accounts, times, ?_, ?_, ?_, ?_, ?_, howner, htimes, _, elapsed, ?_, rfl⟩
    · have hrecords := haccounts.records
      exact hrecords
    · exact haccounts.numbers
    · have hsize : UInt32.size = 4294967296 := rfl
      omega
    · rw [hcut]
      exact haccounts.pieces
    · rw [writes_append, writes_append, writes_append, hopened, looks.writes_eq, hwrites,
        haccounts.writes]
      rfl
    · exact howner

/-- What a run that ended well left in a store: about itself nothing but the rows of its accounts,
and about other runs what there was before. -/
structure Left (ctx : RunContext) (outcome : RunOutcome) (accounts : List Account)
    (before after : MemoryStore) : Prop where
  getRun : after.getRun ctx.benchmark ctx.tool = some outcome.run
  listIterations : after.listIterations ctx.benchmark ctx.tool = outcome.iterations
  listPartitions : ∀ a ∈ accounts,
    after.listPartitions ctx.benchmark ctx.tool a.number = a.rows ctx
  listPartitions_of_not_mem : ∀ i, i ∉ accounts.map (·.number) →
    after.listPartitions ctx.benchmark ctx.tool i = []
  others : ∀ benchmark tool, (benchmark, tool) ≠ (ctx.benchmark, ctx.tool) →
    after.under benchmark tool = before.under benchmark tool

namespace Runs.Accounts

variable {h : History} {outcome : RunOutcome} {first : RunRecord} {accounts : List Account}
  {times : List TimeRecord} (haccounts : Runs.Accounts ctx h outcome first accounts times)

include haccounts

theorem owner : outcome.run.owner = (ctx.benchmark, ctx.tool) := by
  obtain ⟨run, elapsed, howner, hrun⟩ := haccounts.run_eq
  rw [hrun]
  exact howner

theorem wellFormed : ∀ a ∈ accounts, a.WellFormed ctx := by
  have hpieces : List.Forall₂ (fun a piece => a.WellFormed ctx ∧ Accounted ctx piece a) accounts
      h.iterations := haccounts.pieces.flip.imp fun a piece hacc => ⟨hacc.wellFormed, hacc⟩
  exact ((List.forall₂_and_left _ _).mp hpieces).1

theorem ascending : (accounts.map (·.number)).Pairwise (· < ·) := by
  rw [haccounts.numbers]
  exact numbersFrom_ascending (by have := haccounts.length_lt; omega)

/-- Nothing that was kept about a run before plays a part in what is kept about it afterwards. -/
theorem under_eq (before : MemoryStore) :
    (before.putAll h.writes).under ctx.benchmark ctx.tool =
      MemoryStore.empty.putAll (writesOf ctx first outcome.run accounts times) := by
  rw [haccounts.writes]
  exact MemoryStore.under_putAll_deleteRun
    (putsFor_writesOf haccounts.first haccounts.owner haccounts.wellFormed haccounts.times)

theorem left (before : MemoryStore) :
    Left ctx outcome accounts before (before.putAll h.writes) where
  getRun := by
    rw [← MemoryStore.getRun_under, haccounts.under_eq]
    exact getRun_putAll haccounts.first haccounts.owner haccounts.wellFormed haccounts.times
  listIterations := by
    rw [← MemoryStore.listIterations_under, haccounts.under_eq, haccounts.records]
    exact listIterations_putAll haccounts.first haccounts.owner haccounts.wellFormed
      haccounts.ascending haccounts.times
  listPartitions a ha := by
    rw [← MemoryStore.listPartitions_under, haccounts.under_eq]
    exact listPartitions_putAll haccounts.first haccounts.owner haccounts.wellFormed
      haccounts.ascending haccounts.times ha
  listPartitions_of_not_mem i hi := by
    rw [← MemoryStore.listPartitions_under, haccounts.under_eq]
    exact listPartitions_putAll_of_not_mem haccounts.first haccounts.owner haccounts.wellFormed
      haccounts.times hi
  others benchmark tool hne := by
    refine MemoryStore.under_putAll_of_ne ?_ hne
    rw [haccounts.writes]
    have hputs := putsFor_writesOf haccounts.first haccounts.owner haccounts.wellFormed
      haccounts.times
    exact List.forall_mem_cons.mpr ⟨.inr rfl, fun w hw => .inl (hputs w hw)⟩

/-- What holds of every account and its rows holds of every iteration of the outcome. -/
theorem forall₂ {before after : MemoryStore}
    (hleft : Left ctx outcome accounts before after) {P : History → IterationRecord → Prop}
    (hP : ∀ piece a, Accounted ctx piece a →
      after.listPartitions ctx.benchmark ctx.tool a.record.iteration = a.rows ctx →
        P piece a.record) :
    List.Forall₂ P h.iterations outcome.iterations := by
  have hrows : ∀ a ∈ accounts,
      after.listPartitions ctx.benchmark ctx.tool a.record.iteration = a.rows ctx := by
    intro a ha
    have hnumber : a.record.iteration = a.number :=
      congrArg (·.2.2) (haccounts.wellFormed a ha).key
    rw [hnumber, hleft.listPartitions a ha]
  have hboth : List.Forall₂ (fun a piece =>
      after.listPartitions ctx.benchmark ctx.tool a.record.iteration = a.rows ctx ∧
        Accounted ctx piece a) accounts h.iterations :=
    (List.forall₂_and_left _ _).mpr ⟨hrows, haccounts.pieces.flip⟩
  rw [haccounts.records, List.forall₂_map_right_iff]
  refine (hboth.imp ?_).flip
  rintro a piece ⟨hrows, hacc⟩
  exact hP piece a hacc hrows

theorem length_iterations_lt : outcome.iterations.length < UInt32.size := by
  rw [haccounts.records, List.length_map]
  exact haccounts.length_lt

/-- The iterations are numbered without a gap. -/
theorem map_iteration :
    outcome.iterations.map (·.iteration) = numbersFrom 0 outcome.iterations.length := by
  have hnumbers : accounts.map (·.record.iteration) = accounts.map (·.number) :=
    List.map_congr_left fun a ha => congrArg (·.2.2) (haccounts.wellFormed a ha).key
  rw [haccounts.records, List.map_map, List.length_map, ← haccounts.numbers]
  exact hnumbers

end Runs.Accounts

end Run

/-- A run that ends well has accounts, and leaves their rows in a store. -/
theorem Settings.left {σ : Type} {store : σ → MemoryStore} {settings : Settings}
    {env : Environment (StateM σ)} {request : RunRequest} {s : σ} {outcome : RunOutcome}
    (keeps : env.Keeps store) (h : ((settings.analyze env request).run s).1 = .ok outcome) :
    ∃ watchdog first accounts times,
      Run.Runs.Accounts (settings.context request watchdog) (settings.history env request s) outcome
        first accounts times ∧
      Run.Left (settings.context request watchdog) outcome accounts (store s)
        (store ((settings.analyze env request).run s).2) := by
  obtain ⟨⟨watchdog, runs⟩, -⟩ := Settings.runs_history h
  obtain ⟨first, accounts, times, haccounts⟩ := runs.accounts
  refine ⟨watchdog, first, accounts, times, haccounts, ?_⟩
  rw [Settings.store_eq keeps]
  exact haccounts.left (store s)

end Regression
