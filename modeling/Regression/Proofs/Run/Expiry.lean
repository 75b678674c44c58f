import Regression.Proofs.Run.Results
import Regression.Proofs.Run.Stored
import Regression.Proofs.Run.Storing

/-!
# What is kept when the time is over

Whenever the watchdog is seen to have expired, the rows of an iteration are those of the partitions
that were accepted before. The verdicts among them are those of whole batches, from the first one
on; the batch that was given up leaves none.

* `expiry_keeps_prefix`: the rows of every iteration, and how they are written.
-/

namespace Regression

open History

namespace PartitionRecord

/-- Everything that is found out about every partition is known. -/
structure IsComplete (r : PartitionRecord) : Prop where
  result : r.result.isSome
  hasUifPc : r.hasUifPc.isSome
  hasUifV1 : r.hasUifV1.isSome
  hasUifV2 : r.hasUifV2.isSome
  hasTimedOut : r.hasTimedOut.isSome
  isDepthLimited : r.isDepthLimited.isSome
  constraintCount : r.constraintCount.isSome
  runtime : r.runtime.isSome

/-- Nothing but the key is known. -/
def IsIndexOnly (r : PartitionRecord) : Prop :=
  r = .indexOnly r.benchmark r.tool r.iteration r.partition

end PartitionRecord

theorem Verdict.isComplete_record (v : Verdict) (benchmark tool : String) (iteration : UInt32) :
    (v.record benchmark tool iteration).IsComplete := by
  constructor <;> rfl

/-- The rows of an iteration, which may have been cut off: partitions are checked in batches. -/
structure IsKeptPrefix (parallelism : Nat) (piece : History) (record : IterationRecord)
    (rows : List PartitionRecord) : Prop where
  /-- There is one row for each partition that was accepted. -/
  accepted : rows.map (·.partition) = piece.accepted.map (·.index)
  /-- Each partition that was delivered in order is among them, unless the store refused it. -/
  inOrder : ∀ p ∈ following none piece.delivered,
    p.index ∈ piece.refused ∨ p.index ∈ rows.map (·.partition)
  /-- If nothing went wrong, these are all that were delivered. -/
  delivered : piece.failed = false → piece.accepted = piece.delivered
  ascending : (rows.map (·.partition)).Pairwise (· < ·)
  each : ∀ r ∈ rows, r.IsIndexOnly ∨ r.IsComplete
  /-- Whole batches have been classified, from the first one on. -/
  classified : rows.filter (·.isClassified) = rows.take (piece.finishedBatches * max 1 parallelism)
  /-- Nothing has been found out about the batch that was given up. -/
  cutOff : ∀ k ∈ piece.cutOff, ∃ r ∈ rows, r.partition = k.partition ∧ r.IsIndexOnly
  partitionCount : piece.accepted.length < UInt32.size →
    record.partitionCount.map (·.toNat) = some rows.length
  hasTimedOut : record.hasTimedOut = some piece.expired

/-- Rows that are classified are not written again. -/
def WrittenOnce (writes : List StoreWrite) : Prop :=
  (writes.filterMap StoreWrite.partition?).Pairwise fun r r' => r.isClassified → r'.key ≠ r.key

namespace Run

variable {ctx : RunContext}

namespace Account

variable (a : Account)

theorem isIndexOnly_of_mem {partitions : List Partition} :
    ∀ r ∈ a.indexRecords ctx partitions, r.IsIndexOnly ∧ r.isClassified = false := by
  intro r hr
  obtain ⟨p, -, rfl⟩ := List.mem_map.mp hr
  exact ⟨rfl, rfl⟩

theorem isComplete_of_mem :
    ∀ r ∈ a.verdictRecords ctx, r.IsComplete ∧ r.isClassified := by
  intro r hr
  obtain ⟨j, -, rfl⟩ := List.mem_map.mp hr
  exact ⟨j.2.isComplete_record _ _ _, rfl⟩

end Account

/-- The rows of an account are a prefix with verdicts, and the rest. -/
theorem Accounted.isKeptPrefix {piece : History} {a : Account} (hacc : Accounted ctx piece a) :
    IsKeptPrefix ctx.settings.solver.parallelism.toNat piece a.record (a.rows ctx) where
  accepted := hacc.map_rows
  inOrder p hp := by
    by_cases hrefused : p.index ∈ piece.refused
    · exact .inl hrefused
    · have hp : p ∈ piece.accepted := List.mem_filter.mpr ⟨hp, by simpa using hrefused⟩
      rw [hacc.map_rows]
      exact .inr (List.mem_map_of_mem hp)
  delivered := accepted_of_not_failed
  ascending := by
    rw [hacc.map_rows]
    exact piece.accepted_ascending
  each r hr := by
    rcases List.mem_append.mp hr with hr | hr
    · exact .inr (a.isComplete_of_mem r hr).1
    · exact .inl (a.isIndexOnly_of_mem r hr).1
  classified := by
    have hbatch : ctx.settings.solver.parallelism.toNat - 1 + 1 =
        max 1 ctx.settings.solver.parallelism.toNat := by omega
    have hlength := congrArg List.length hacc.judged_eq
    rw [List.length_map, List.length_take, hbatch] at hlength
    have hverdicts : (a.rows ctx).take a.judged.length = a.verdictRecords ctx :=
      List.take_left' (List.length_map _)
    have hrows := hacc.length_rows
    rw [← hacc.partitions] at hrows
    rw [a.filter_rows, ← hverdicts, List.take_eq_take_iff]
    omega
  cutOff k hk := by
    obtain ⟨p, hp, hindex⟩ := List.mem_map.mp (hacc.cutOff k hk)
    exact ⟨.indexOnly ctx.benchmark ctx.tool a.number p.index,
      List.mem_append_right _ (List.mem_map_of_mem hp), hindex, rfl⟩
  partitionCount := hacc.partitionCount_eq
  hasTimedOut := hacc.analyzed.hasTimedOut

/-- Within an iteration no row is written after its verdict. -/
theorem Account.WellFormed.writtenOnce {a : Account} (ha : a.WellFormed ctx) :
    (a.indexRecords ctx a.partitions ++ a.verdictRecords ctx).Pairwise
      fun r r' => r.isClassified → r'.key ≠ r.key := by
  have hindices : ((a.verdictRecords ctx).map (·.partition)).Pairwise (· < ·) := by
    rw [ha.map_verdictRecords]
    exact ha.ascending.sublist ((List.take_sublist _ _).map _)
  refine List.pairwise_append.mpr ⟨?_, ?_, ?_⟩
  · refine List.Pairwise.imp_of_mem (R := fun _ _ => True) ?_ (List.pairwise_of_forall ?_)
    · intro r r' hr _ _ hclassified
      rw [(a.isIndexOnly_of_mem r hr).2] at hclassified
      cases hclassified
    · exact fun _ _ => trivial
  · refine (List.pairwise_map.mp hindices).imp fun {r r'} hlt _ hkey => ?_
    have hsame : r'.partition = r.partition := congrArg (·.2.2.2) hkey
    exact UInt32.ne_of_lt hlt hsame.symm
  · intro r hr r' _ hclassified
    rw [(a.isIndexOnly_of_mem r hr).2] at hclassified
    cases hclassified

/-- In a run no row of a partition is written after its verdict. -/
theorem Runs.Accounts.writtenOnce {h : History} {outcome : RunOutcome} {first : RunRecord}
    {accounts : List Account} {times : List TimeRecord}
    (haccounts : Runs.Accounts ctx h outcome first accounts times) : WrittenOnce h.writes := by
  have hpartitions : h.writes.filterMap StoreWrite.partition? =
      accounts.flatMap fun a => a.indexRecords ctx a.partitions ++ a.verdictRecords ctx := by
    rw [haccounts.writes]
    exact @filterMap_partition?_writesOf ctx first outcome.run accounts times
  have hiteration : ∀ (a : Account) (r : PartitionRecord),
      r ∈ a.indexRecords ctx a.partitions ++ a.verdictRecords ctx → r.iteration = a.number := by
    intro a r hr
    rcases List.mem_append.mp hr with hr | hr
    · obtain ⟨p, -, rfl⟩ := List.mem_map.mp hr
      rfl
    · obtain ⟨j, -, rfl⟩ := List.mem_map.mp hr
      rfl
  rw [WrittenOnce, hpartitions, List.pairwise_flatMap]
  refine ⟨fun a ha => (haccounts.wellFormed a ha).writtenOnce, ?_⟩
  refine (List.pairwise_map.mp haccounts.ascending).imp fun {a a'} hlt r hr r' hr' _ hkey => ?_
  have hsame : r'.iteration = r.iteration := congrArg (·.2.2.1) hkey
  rw [hiteration a r hr, hiteration a' r' hr'] at hsame
  exact UInt32.ne_of_lt hlt hsame.symm

end Run

/-- Whenever the time is over, what is left of an iteration is a prefix that fits together, and no
row is written after its verdict. -/
theorem expiry_keeps_prefix {σ : Type} {store : σ → MemoryStore} {settings : Settings}
    {env : Environment (StateM σ)} {request : RunRequest} {s : σ} {outcome : RunOutcome}
    (keeps : env.Keeps store) (h : ((settings.analyze env request).run s).1 = .ok outcome) :
    let after := store ((settings.analyze env request).run s).2
    List.Forall₂ (fun piece record =>
        IsKeptPrefix settings.solver.parallelism.toNat piece record
          (after.listPartitions request.benchmark settings.label record.iteration))
      (settings.history env request s).iterations
      (after.listIterations request.benchmark settings.label) ∧
    WrittenOnce (settings.history env request s).writes := by
  intro after
  obtain ⟨watchdog, first, accounts, times, haccounts, hleft⟩ := Settings.left keeps h
  have hiterations : after.listIterations request.benchmark settings.label = outcome.iterations :=
    hleft.listIterations
  refine ⟨?_, haccounts.writtenOnce⟩
  rw [hiterations]
  refine haccounts.forall₂ hleft fun piece a hacc hrows => ?_
  have hrows : after.listPartitions request.benchmark settings.label a.record.iteration =
      a.rows (settings.context request watchdog) := hrows
  rw [hrows]
  exact hacc.isKeptPrefix

/-- The watchdog expires while the batch is checked. -/
def Environment.givingUp (p : Partition) (status : QueryKind → Status) :
    Environment (StateM Bool) :=
  { Environment.delivering p status with closeBatch := fun _ => pure .expired }

/-- Two queries of the batch had been answered when it was given up. -/
theorem expiry_keeps_prefix_unchanged :
    ∃ (after : MemoryStore) (h : History), h.iterations.map (·.cutOff.length) = [2] ∧
      List.Forall₂ (fun piece record =>
          IsKeptPrefix 1 piece record (after.listPartitions "f" "CEGAR" record.iteration))
        h.iterations (after.listIterations "f" "CEGAR") ∧
      WrittenOnce h.writes := by
  have hrun : (((Settings.default 1).analyze (Environment.givingUp unchanged agreeing).storing
      { benchmark := "f" }).run (false, .empty)).1.toOption.isSome := by
    decide +kernel
  have hcutOff : ((Settings.default 1).history (Environment.givingUp unchanged agreeing).storing
      { benchmark := "f" } (false, .empty)).iterations.map (·.cutOff.length) = [2] := by
    decide +kernel
  cases hr : (((Settings.default 1).analyze (Environment.givingUp unchanged agreeing).storing
      { benchmark := "f" }).run (false, .empty)).1 with
  | error e => simp [hr, Except.toOption] at hrun
  | ok outcome =>
    exact ⟨_, _, hcutOff, expiry_keeps_prefix (Environment.storing_keeps _) hr⟩

end Regression
