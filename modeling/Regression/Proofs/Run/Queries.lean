import Mathlib.Data.List.Perm.Subperm
import Regression.Proofs.Oracle.Classifying
import Regression.Proofs.Run.Pieces

/-!
# The queries of a run

The answer to a query is kept at most once in a run. The keys of the queries about a partition are
three at most, partitions have growing indices within an iteration, and iterations have growing
numbers.

* `Run.Analyzes.answered_nodup`: the keys within an iteration.
* `Run.Runs.answered_nodup`: the keys of a whole run.
* `query_protocol`: how queries are asked, and that each key is used once.
-/

namespace Regression

open History

/-! ## Keys -/

/-- The keys of all queries about some partitions. -/
def queryKeys (iteration : UInt32) (partitions : List Partition) : List QueryKey :=
  partitions.flatMap fun p => [.pc, .neq, .eq].map fun kind => ⟨iteration, p.index, kind⟩

theorem queryKeys_append (iteration : UInt32) (partitions partitions' : List Partition) :
    queryKeys iteration (partitions ++ partitions') =
      queryKeys iteration partitions ++ queryKeys iteration partitions' :=
  List.flatMap_append

theorem iteration_of_mem_queryKeys {iteration : UInt32} {partitions : List Partition}
    {k : QueryKey} (hk : k ∈ queryKeys iteration partitions) :
    k.iteration = iteration ∧ k.partition ∈ partitions.map (·.index) := by
  obtain ⟨p, hp, hk⟩ := List.mem_flatMap.mp hk
  obtain ⟨kind, -, rfl⟩ := List.mem_map.mp hk
  exact ⟨rfl, List.mem_map_of_mem hp⟩

/-- Partitions with different indices have different keys. -/
theorem nodup_queryKeys (iteration : UInt32) {partitions : List Partition}
    (h : (partitions.map (·.index)).Nodup) : (queryKeys iteration partitions).Nodup := by
  induction partitions with
  | nil => exact List.nodup_nil
  | cons p rest ih =>
    obtain ⟨hfresh, hrest⟩ := List.nodup_cons.mp h
    have hinjective : Function.Injective fun kind => (⟨iteration, p.index, kind⟩ : QueryKey) :=
      fun _ _ heq => congrArg QueryKey.kind heq
    have hkinds := List.Nodup.map hinjective (by decide : [QueryKind.pc, .neq, .eq].Nodup)
    refine List.nodup_append.mpr ⟨hkinds, ih hrest, ?_⟩
    rintro k hk k' hk' rfl
    obtain ⟨kind, -, rfl⟩ := List.mem_map.mp hk
    exact hfresh (iteration_of_mem_queryKeys hk').2

namespace Event

theorem recorded?_of_isOutside {e : Event} (h : e.isOutside) : e.recorded? = none := by
  cases e <;> first | rfl | cases h

end Event

theorem History.answered_of_isOutside {h : History} (ho : ∀ e ∈ h, e.isOutside) :
    h.answered = [] := by
  rw [answered, List.filterMap_eq_nil_iff]
  exact fun e he => Event.recorded?_of_isOutside (ho e he)

/-! ## Within an iteration -/

theorem Oracle.Checks.answered_sublist {timeoutMs : UInt64} {iteration : UInt32} {p : Partition}
    {es : History} {v : Verdict} (checks : Checks timeoutMs iteration p es v) :
    es.answered.Sublist (queryKeys iteration [p]) := by
  obtain ⟨statuses, failure, runtime, investigates, rfl⟩ := checks
  have protocol : FollowsProtocol timeoutMs iteration p es (conclude p statuses failure runtime) :=
    investigates.followsProtocol
  exact protocol.answered.sublist

theorem Oracle.ChecksAll.answered_subperm {timeoutMs : UInt64} {iteration : UInt32}
    {partitions : List Partition} {es : History} {verdicts : List Verdict}
    (checks : ChecksAll timeoutMs iteration partitions es verdicts) :
    es.answered.Subperm (queryKeys iteration partitions) := by
  obtain ⟨parts, hchecks, hperm⟩ := checks
  refine (hperm.filterMap Event.recorded?).subperm_right.mpr (List.Sublist.subperm ?_)
  clear hperm
  induction parts with
  | nil => exact List.Sublist.refl []
  | cons c parts ih =>
    obtain ⟨hcheck, hchecks⟩ := List.forall_mem_cons.mp hchecks
    rw [List.flatMap_cons, List.filterMap_append]
    have hrest := hcheck.answered_sublist.append (ih hchecks)
    rwa [← queryKeys_append] at hrest

namespace Run

variable {ctx : RunContext} {iteration : UInt32} {es : History}

theorem Concludes.answered_eq {items : List (Partition × Verdict)} {found : Classified}
    {r : Except Failure Classified} (h : Concludes ctx iteration items found es r) :
    es.answered = [] := by
  induction h with
  | done | failed => rfl
  | next _ ih => exact ih

theorem Classifies.answered_subperm {pieces : List (List Partition)} {found : Classified}
    {r : Except Failure Classified} (h : Classifies ctx iteration pieces found es r) :
    es.answered.Subperm (queryKeys iteration pieces.flatten) := by
  have hbatch {batch : List Partition} {rest : List (List Partition)} {es es' : History}
      {verdicts : List Verdict}
      (checks : Oracle.ChecksAll ctx.settings.solver.timeoutMs iteration batch es verdicts)
      (hes' : es'.answered.Subperm (queryKeys iteration rest.flatten)) :
      (es ++ es').answered.Subperm (queryKeys iteration (batch :: rest).flatten) := by
    rw [answered_append, List.flatten_cons, queryKeys_append]
    exact checks.answered_subperm.append hes'
  induction h with
  | done | expired => exact List.nil_subperm
  | abandoned checks | aborted checks => exact hbatch checks (List.nil_subperm)
  | @failed batch rest found es es' verdicts e checks concludes =>
    have hnone : History.answered (.closed (.done (.ok ())) :: es') = [] := concludes.answered_eq
    exact hbatch checks (hnone ▸ List.nil_subperm)
  | @next batch rest found found' es es' es'' verdicts r checks concludes _ ih =>
    have hrest : History.answered (.closed (.done (.ok ())) :: (es' ++ es'')) = es''.answered := by
      have happend := answered_append es' es''
      rw [concludes.answered_eq, List.nil_append] at happend
      exact happend
    exact hbatch checks (hrest ▸ ih)

theorem Judges.answered_subperm {explored : Exploration} {r : Except Failure Classified}
    (h : Judges ctx iteration explored es r) :
    es.answered.Subperm (queryKeys iteration explored.partitions) := by
  cases h with
  | expired => exact List.nil_subperm
  | classified _ classifies =>
    have hsubperm := classifies.answered_subperm
    rwa [batches_flatten] at hsubperm

/-- The keys of an iteration differ, since the partitions that are checked have growing indices. -/
theorem Analyzes.answered_nodup {r : Except Failure IterationReport}
    (h : Analyzes ctx iteration es r) :
    es.answered.Nodup ∧ ∀ k ∈ es.answered, k.iteration = iteration := by
  have hparts {es es' rest : History} {explored : Exploration} {r : Except Failure Classified}
      (explores : Explores ctx iteration es explored)
      (judges : Judges ctx iteration explored es' r) (hrest : rest.answered = []) :
      (es ++ (es' ++ rest)).answered.Nodup ∧
        ∀ k ∈ (es ++ (es' ++ rest)).answered, k.iteration = iteration := by
    have hanswered : (es ++ (es' ++ rest)).answered = es'.answered := by
      rw [answered_append, answered_append, explores.answered_eq, hrest, List.nil_append,
        List.append_nil]
    have hascending : (explored.partitions.map (·.index)).Pairwise (· < ·) := by
      rw [← explores.accepted_eq]
      exact es.accepted_ascending
    have hnodup : (explored.partitions.map (·.index)).Nodup :=
      hascending.imp fun hlt => UInt32.ne_of_lt hlt
    rw [hanswered]
    obtain ⟨keys, hkeys, hsublist⟩ := judges.answered_subperm
    refine ⟨hkeys.nodup_iff.mp (hsublist.nodup (nodup_queryKeys iteration hnodup)),
      fun k hk => ?_⟩
    exact (iteration_of_mem_queryKeys (judges.answered_subperm.subset hk)).1
  cases h with
  | unstarted => exact ⟨List.nodup_nil, by simp [History.answered, Event.recorded?]⟩
  | failed explores judges =>
    have hnone : History.answered [] = [] := rfl
    have hall := hparts explores judges hnone
    rw [List.append_nil] at hall
    exact hall
  | unstored explores judges => exact hparts explores judges rfl
  | unlisted explores judges => exact hparts explores judges rfl
  | done explores judges => exact hparts explores judges rfl

/-! ## Over a whole run -/

theorem Refines.answered_eq {refined : List String} {inconclusive : NameSet}
    {r : Except StopReason String} (h : Refines ctx refined inconclusive es r) :
    es.answered = [] := by
  cases h <;> rfl

/-- The keys of a run that goes on differ, and their iterations come behind those before. -/
theorem Iterates.answered_nodup {remaining : Nat} {progress : Progress}
    {r : Except Failure (Progress × StopReason)} (h : Iterates ctx remaining progress es r)
    (hroom : progress.iterations.length + remaining < UInt32.size) :
    es.answered.Nodup ∧ ∀ k ∈ es.answered, progress.iterations.length < k.iteration.toNat := by
  have hnext {progress : Progress} {remaining : Nat}
      (hroom : progress.iterations.length + (remaining + 1) < UInt32.size) :
      progress.next.toNat = progress.iterations.length + 1 := by
    rw [Progress.next]
    exact UInt32.toNat_ofNat_of_lt' (by omega)
  have hone {progress : Progress} {remaining : Nat} {es : History}
      {r : Except Failure IterationReport} (analyzes : Analyzes ctx progress.next es r)
      (hroom : progress.iterations.length + (remaining + 1) < UInt32.size) :
      es.answered.Nodup ∧
        ∀ k ∈ es.answered, k.iteration.toNat = progress.iterations.length + 1 := by
    obtain ⟨hnodup, hiteration⟩ := analyzes.answered_nodup
    exact ⟨hnodup, fun k hk => by rw [hiteration k hk, hnext hroom]⟩
  induction h with
  | exhausted => exact ⟨List.nodup_nil, by simp [History.answered]⟩
  | failed analyzes | timedOut analyzes | stopped analyzes =>
    obtain ⟨hnodup, hiteration⟩ := hone analyzes hroom
    exact ⟨hnodup, fun k hk => by rw [hiteration k hk]; omega⟩
  | unrefined analyzes _ _ refines =>
    obtain ⟨hnodup, hiteration⟩ := hone analyzes hroom
    rw [answered_append, refines.answered_eq, List.append_nil]
    exact ⟨hnodup, fun k hk => by rw [hiteration k hk]; omega⟩
  | @next remaining progress es es' es'' report unit r analyzes _ _ refines _ ih =>
    obtain ⟨hnodup, hiteration⟩ := hone analyzes hroom
    have hlength : ((progress.analyzed report).expanded unit).iterations.length =
        progress.iterations.length + 1 := by
      simp [Progress.analyzed, Progress.expanded]
    rw [hlength] at ih
    obtain ⟨hnodup', hbehind⟩ := ih (by omega)
    rw [answered_append, answered_append, refines.answered_eq, List.nil_append]
    refine ⟨List.nodup_append.mpr ⟨hnodup, hnodup', ?_⟩, ?_⟩
    · rintro k hk k' hk' rfl
      have hlt := hbehind k hk'
      rw [hiteration k hk] at hlt
      omega
    · intro k hk
      rcases List.mem_append.mp hk with hk | hk
      · rw [hiteration k hk]
        omega
      · have hlt := hbehind k hk
        omega

/-- No answer is kept twice. -/
theorem Runs.answered_nodup {request : RunRequest} {h : History} {r : Except Failure RunOutcome}
    (runs : Runs ctx request h r) : h.answered.Nodup := by
  have hroom : ({} : Progress).iterations.length + (UInt32.size - 1) < UInt32.size := by decide
  cases runs with
  | unopened opens =>
    rw [answered_of_isOutside opens.isOutside]
    exact List.nodup_nil
  | missing opens looks finishes =>
    rw [answered_append, answered_append, answered_of_isOutside opens.isOutside,
      answered_of_isOutside looks.isOutside, answered_of_isOutside finishes.isOutside]
    exact List.nodup_nil
  | failed opens looks iterates =>
    rw [answered_append, answered_append, answered_of_isOutside opens.isOutside,
      answered_of_isOutside looks.isOutside]
    exact (iterates.answered_nodup hroom).1
  | iterated opens looks iterates finishes =>
    rw [answered_append, answered_append, answered_append, answered_of_isOutside opens.isOutside,
      answered_of_isOutside looks.isOutside, answered_of_isOutside finishes.isOutside,
      List.append_nil]
    exact (iterates.answered_nodup hroom).1

end Run

/-- Queries about a partition follow the protocol, whatever the desk does, and no answer is kept
twice in a run, whatever the environment does. -/
theorem query_protocol :
    (∀ {σ : Type} (desk : QueryDesk (StateM σ)) timeoutMs iteration p s,
      Oracle.FollowsProtocol timeoutMs iteration p
        (Oracle.checkHistory desk timeoutMs iteration p s)
        ((Oracle.check desk timeoutMs iteration p).run s).1) ∧
      ∀ {σ : Type} (settings : Settings) (env : Environment (StateM σ)) request s,
        (settings.history env request s).answered.Nodup := by
  constructor
  · intro σ desk timeoutMs iteration p s
    obtain ⟨⟨statuses, failure, runtime, investigates, hv⟩, -⟩ :=
      Oracle.checks_checkHistory desk timeoutMs iteration p s
    rw [hv]
    exact investigates.followsProtocol
  · intro σ settings env request s
    rcases settings.runs_or env request s with ⟨watchdog, runs⟩ | ⟨hnone, -⟩
    · exact runs.answered_nodup
    · rw [hnone]
      exact List.nodup_nil

end Regression
