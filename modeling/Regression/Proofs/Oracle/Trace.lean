import Mathlib.Data.List.Forall2
import Mathlib.Data.List.InsertIdx
import Mathlib.Data.List.Perm.Basic
import Regression.Proofs.History

/-!
# What the oracle does

The steps of the oracle as relations between histories and results, one constructor for every way
in which a step can end: `Asks` for a query, `Relates` for a query about both results,
`Investigates` for all queries about a partition, `Checks` and `ChecksAll` for verdicts.

* `Oracle.shows_check`, `Oracle.shows_checkAll`: these relations leave nothing out.
-/

namespace Regression

/-- The answer that a query got. -/
def Event.answer? : Event → Option Status
  | .asked _ (.ok answer) => some answer.status
  | _ => none

/-- The key of a query whose answer was kept. -/
def Event.recorded? : Event → Option QueryKey
  | .recorded key .. => some key
  | _ => none

/-- Something that was asked of the desk. -/
def Event.isFromDesk : Event → Bool
  | .cancelled _ | .asked .. | .recorded .. => true
  | _ => false

/-- All answers, in their order. -/
def History.answers (h : History) : List Status := h.filterMap Event.answer?

@[simp] theorem History.answers_append (h h' : History) :
    (h ++ h').answers = h.answers ++ h'.answers :=
  List.filterMap_append

/-- The queries whose answers were kept. -/
def History.answered (h : History) : List QueryKey := h.filterMap Event.recorded?

@[simp] theorem History.answered_append (h h' : History) :
    (h ++ h').answered = h.answered ++ h'.answered :=
  List.filterMap_append

namespace Oracle

/-! ## Queries -/

/-- A query was asked and its answer was kept, unless something came in between. -/
inductive Asks (timeoutMs : UInt64) (key : QueryKey) (conditions : List Expr) :
    History → Except Failure Status → Prop
  | cancelled : Asks timeoutMs key conditions [.cancelled true] (.error .cancelled)
  | malformed {e : Malformed} (build : Query.build key.kind conditions timeoutMs = .error e) :
    Asks timeoutMs key conditions [.cancelled false] (.error (.malformed e))
  | failed {q : Query} {e : Failure} (build : Query.build key.kind conditions timeoutMs = .ok q) :
    Asks timeoutMs key conditions [.cancelled false, .asked q (.error e)] (.error e)
  | lost {q : Query} {answer : Answer} {e : Failure}
    (build : Query.build key.kind conditions timeoutMs = .ok q) :
    Asks timeoutMs key conditions
      [.cancelled false, .asked q (.ok answer), .recorded key q answer (.error e)] (.error e)
  | answered {q : Query} {answer : Answer}
    (build : Query.build key.kind conditions timeoutMs = .ok q) :
    Asks timeoutMs key conditions
      [.cancelled false, .asked q (.ok answer), .recorded key q answer (.ok ())]
      (.ok answer.status)

/-- A query about two results was asked, if their relation has a sort. -/
inductive Relates (timeoutMs : UInt64) (key : QueryKey) (pc v1 v2 : Expr) (equal : Bool) :
    History → Except Failure Status → Prop
  | malformed {e : Malformed} (relation : relate v1 v2 equal = .error e) :
    Relates timeoutMs key pc v1 v2 equal [] (.error (.malformed e))
  | asked {relation : Expr} {es : History} {r : Except Failure Status}
    (relation_eq : relate v1 v2 equal = .ok relation)
    (asks : Asks timeoutMs key [pc, relation] es r) :
    Relates timeoutMs key pc v1 v2 equal es r

/-- A query that was answered got one answer. -/
theorem Asks.answers_eq {timeoutMs : UInt64} {key : QueryKey} {conditions : List Expr}
    {es : History} {status : Status} (h : Asks timeoutMs key conditions es (.ok status)) :
    es.answers = [status] := by
  cases h
  rfl

theorem Relates.answers_eq {timeoutMs : UInt64} {key : QueryKey} {pc v1 v2 : Expr} {equal : Bool}
    {es : History} {status : Status}
    (h : Relates timeoutMs key pc v1 v2 equal es (.ok status)) : es.answers = [status] := by
  cases h with
  | asked _ asks => exact asks.answers_eq

/-! ## Partitions -/

/-- The queries about two results on a path that may be taken. -/
inductive Compares (timeoutMs : UInt64) (iteration : UInt32) (p : Partition) (v1 v2 : Expr)
    (pc : Status) : History → Statuses × Option Failure → Prop
  | failed {es : History} {e : Failure}
    (neq : Relates timeoutMs ⟨iteration, p.index, .neq⟩ p.pc v1 v2 false es (.error e)) :
    Compares timeoutMs iteration p v1 v2 pc es ({ pc := some pc }, some e)
  | decided {es : History} {neq : Status}
    (neq_eq : Relates timeoutMs ⟨iteration, p.index, .neq⟩ p.pc v1 v2 false es (.ok neq))
    (certain : neq = .sat → p.hasUif = false) :
    Compares timeoutMs iteration p v1 v2 pc es ({ pc := some pc, neq := some neq }, none)
  | undecided {es es' : History} {e : Failure}
    (neq : Relates timeoutMs ⟨iteration, p.index, .neq⟩ p.pc v1 v2 false es (.ok .sat))
    (abstract : p.hasUif)
    (eq : Relates timeoutMs ⟨iteration, p.index, .eq⟩ p.pc v1 v2 true es' (.error e)) :
    Compares timeoutMs iteration p v1 v2 pc (es ++ es')
      ({ pc := some pc, neq := some .sat }, some e)
  | weighed {es es' : History} {eq : Status}
    (neq : Relates timeoutMs ⟨iteration, p.index, .neq⟩ p.pc v1 v2 false es (.ok .sat))
    (abstract : p.hasUif)
    (eq_eq : Relates timeoutMs ⟨iteration, p.index, .eq⟩ p.pc v1 v2 true es' (.ok eq)) :
    Compares timeoutMs iteration p v1 v2 pc (es ++ es')
      ({ pc := some pc, neq := some .sat, eq := some eq }, none)

/-- The queries about a partition: what is known afterwards, and why they ended early. -/
inductive Investigates (timeoutMs : UInt64) (iteration : UInt32) (p : Partition) :
    History → Statuses × Option Failure → Prop
  | failed {es : History} {e : Failure}
    (pc : Asks timeoutMs ⟨iteration, p.index, .pc⟩ [p.pc] es (.error e)) :
    Investigates timeoutMs iteration p es ({}, some e)
  | unreachable {es : History}
    (pc : Asks timeoutMs ⟨iteration, p.index, .pc⟩ [p.pc] es (.ok .unsat)) :
    Investigates timeoutMs iteration p es ({ pc := some .unsat }, none)
  | raised {es : History} {pc : Status}
    (pc_eq : Asks timeoutMs ⟨iteration, p.index, .pc⟩ [p.pc] es (.ok pc)) (open_ : pc ≠ .unsat)
    (raises : p.v1.expr? = none ∨ p.v2.expr? = none) :
    Investigates timeoutMs iteration p es ({ compareRaised p.v1 p.v2 with pc := some pc }, none)
  | compared {es es' : History} {pc : Status} {v1 v2 : Expr} {r : Statuses × Option Failure}
    (pc_eq : Asks timeoutMs ⟨iteration, p.index, .pc⟩ [p.pc] es (.ok pc)) (open_ : pc ≠ .unsat)
    (v1_eq : p.v1.expr? = some v1) (v2_eq : p.v2.expr? = some v2)
    (compares : Compares timeoutMs iteration p v1 v2 pc es' r) :
    Investigates timeoutMs iteration p (es ++ es') r

/-- A partition was investigated and got its verdict. -/
def Checks (timeoutMs : UInt64) (iteration : UInt32) (p : Partition) (es : History)
    (v : Verdict) : Prop :=
  ∃ statuses failure runtime, Investigates timeoutMs iteration p es (statuses, failure) ∧
    v = conclude p statuses failure runtime

/-- A partition with what was asked about it and the verdict that it got. -/
structure Checked where
  partition : Partition
  events : History
  verdict : Verdict

/-- Partitions were checked one after the other, in any order: each of them has a part of the
events. -/
inductive ChecksAll (timeoutMs : UInt64) (iteration : UInt32) :
    List Partition → History → List Verdict → Prop
  | intro (parts : List Checked) {es : History}
    (checks : ∀ c ∈ parts, Checks timeoutMs iteration c.partition c.events c.verdict)
    (perm : es.Perm (parts.flatMap (·.events))) :
    ChecksAll timeoutMs iteration (parts.map (·.partition)) es (parts.map (·.verdict))

theorem ChecksAll.nil {timeoutMs : UInt64} {iteration : UInt32} :
    ChecksAll timeoutMs iteration [] [] [] :=
  .intro [] (by simp) .rfl

/-- One of the partitions may be checked before the others. -/
theorem ChecksAll.insertIdx {timeoutMs : UInt64} {iteration : UInt32}
    {partitions : List Partition} {k : Fin partitions.length} {es es' : History} {v : Verdict}
    {verdicts : List Verdict} (check : Checks timeoutMs iteration (partitions.get k) es v)
    (checks : ChecksAll timeoutMs iteration (partitions.eraseIdx k) es' verdicts) :
    ChecksAll timeoutMs iteration partitions (es ++ es') (verdicts.insertIdx k v) := by
  generalize hothers : partitions.eraseIdx k = others at checks
  obtain ⟨parts, hchecks, hperm⟩ := checks
  have hk : k.val ≤ parts.length := by
    have hlength := congrArg List.length hothers
    rw [List.length_eraseIdx_of_lt k.isLt, List.length_map] at hlength
    omega
  have hinsert : (parts.insertIdx k ⟨partitions.get k, es, v⟩).Perm
      (⟨partitions.get k, es, v⟩ :: parts) := List.perm_insertIdx _ _ hk
  have hall := @ChecksAll.intro timeoutMs iteration
    (parts.insertIdx k ⟨partitions.get k, es, v⟩) (es ++ es') ?_ ?_
  · rw [List.map_insertIdx, List.map_insertIdx, ← hothers] at hall
    dsimp only at hall
    rwa [List.get_eq_getElem, List.insertIdx_eraseIdx_getElem] at hall
  · intro c hc
    rcases List.mem_cons.mp (hinsert.mem_iff.mp hc) with rfl | hc
    · exact check
    · exact hchecks c hc
  · refine List.Perm.trans ?_ (hinsert.flatMap_right _).symm
    rw [List.flatMap_cons]
    exact hperm.append_left es

theorem ChecksAll.forall₂ {timeoutMs : UInt64} {iteration : UInt32} {partitions : List Partition}
    {es : History} {verdicts : List Verdict}
    (h : ChecksAll timeoutMs iteration partitions es verdicts) :
    List.Forall₂ (fun p v => ∃ es' ⊆ es, Checks timeoutMs iteration p es' v) partitions
      verdicts := by
  obtain ⟨parts, hchecks, hperm⟩ := h
  rw [List.forall₂_map_left_iff, List.forall₂_map_right_iff, List.forall₂_same]
  intro c hc
  refine ⟨c.events, fun e he => ?_, hchecks c hc⟩
  exact hperm.mem_iff.mpr (List.mem_flatMap.mpr ⟨c, hc, he⟩)

/-! ## Events at the desk -/

section

variable {timeoutMs : UInt64} {iteration : UInt32} {p : Partition} {es : History}

theorem Asks.isFromDesk {key : QueryKey} {conditions : List Expr} {r : Except Failure Status}
    (h : Asks timeoutMs key conditions es r) : ∀ e ∈ es, e.isFromDesk := by
  cases h <;> simp [Event.isFromDesk]

theorem Relates.isFromDesk {key : QueryKey} {pc v1 v2 : Expr} {equal : Bool}
    {r : Except Failure Status} (h : Relates timeoutMs key pc v1 v2 equal es r) :
    ∀ e ∈ es, e.isFromDesk := by
  cases h with
  | malformed => simp
  | asked _ asks => exact asks.isFromDesk

theorem Compares.isFromDesk {v1 v2 : Expr} {pc : Status} {r : Statuses × Option Failure}
    (h : Compares timeoutMs iteration p v1 v2 pc es r) : ∀ e ∈ es, e.isFromDesk := by
  cases h with
  | failed neq => exact neq.isFromDesk
  | decided neq => exact neq.isFromDesk
  | undecided neq _ eq =>
    exact List.forall_mem_append.mpr ⟨neq.isFromDesk, eq.isFromDesk⟩
  | weighed neq _ eq => exact List.forall_mem_append.mpr ⟨neq.isFromDesk, eq.isFromDesk⟩

theorem Investigates.isFromDesk {r : Statuses × Option Failure}
    (h : Investigates timeoutMs iteration p es r) : ∀ e ∈ es, e.isFromDesk := by
  cases h with
  | failed pc | unreachable pc | raised pc => exact pc.isFromDesk
  | compared pc _ _ _ compares =>
    exact List.forall_mem_append.mpr ⟨pc.isFromDesk, compares.isFromDesk⟩

theorem Checks.isFromDesk {v : Verdict} (h : Checks timeoutMs iteration p es v) :
    ∀ e ∈ es, e.isFromDesk := by
  obtain ⟨_, _, _, hinv, -⟩ := h
  exact hinv.isFromDesk

theorem ChecksAll.isFromDesk {partitions : List Partition} {verdicts : List Verdict}
    (h : ChecksAll timeoutMs iteration partitions es verdicts) : ∀ e ∈ es, e.isFromDesk := by
  obtain ⟨parts, hchecks, hperm⟩ := h
  intro e he
  obtain ⟨c, hc, he⟩ := List.mem_flatMap.mp (hperm.mem_iff.mp he)
  exact (hchecks c hc).isFromDesk e he

end

/-! ## Keys of queries -/

section

variable {timeoutMs : UInt64} {iteration : UInt32} {p : Partition} {es : History} {k : QueryKey}

theorem Asks.answered_key {key : QueryKey} {conditions : List Expr} {r : Except Failure Status}
    (h : Asks timeoutMs key conditions es r) (hk : k ∈ es.answered) : k = key := by
  cases h with
  | cancelled | malformed | failed => simp [History.answered, Event.recorded?] at hk
  | lost | answered =>
    have heq : key = k := by simpa [History.answered, Event.recorded?] using hk
    exact heq.symm

theorem Relates.answered_key {key : QueryKey} {pc v1 v2 : Expr} {equal : Bool}
    {r : Except Failure Status} (h : Relates timeoutMs key pc v1 v2 equal es r)
    (hk : k ∈ es.answered) : k = key := by
  cases h with
  | malformed => cases hk
  | asked _ asks => exact asks.answered_key hk

theorem Compares.answered_partition {v1 v2 : Expr} {pc : Status} {r : Statuses × Option Failure}
    (h : Compares timeoutMs iteration p v1 v2 pc es r) (hk : k ∈ es.answered) :
    k.partition = p.index := by
  cases h with
  | failed neq | decided neq => rw [neq.answered_key hk]
  | undecided neq _ eq | weighed neq _ eq =>
    rw [History.answered_append] at hk
    rcases List.mem_append.mp hk with hk | hk
    · rw [neq.answered_key hk]
    · rw [eq.answered_key hk]

theorem Checks.answered_partition {v : Verdict} (h : Checks timeoutMs iteration p es v)
    (hk : k ∈ es.answered) : k.partition = p.index := by
  obtain ⟨statuses, failure, runtime, hinv, -⟩ := h
  cases hinv with
  | failed pc | unreachable pc | raised pc => rw [pc.answered_key hk]
  | compared pc _ _ _ compares =>
    rw [History.answered_append] at hk
    rcases List.mem_append.mp hk with hk | hk
    · rw [pc.answered_key hk]
    · exact compares.answered_partition hk

/-- All queries are about the partitions that are checked. -/
theorem ChecksAll.answered_partition {partitions : List Partition} {verdicts : List Verdict}
    (h : ChecksAll timeoutMs iteration partitions es verdicts) (hk : k ∈ es.answered) :
    k.partition ∈ partitions.map (·.index) := by
  obtain ⟨parts, hchecks, hperm⟩ := h
  have hanswered := hperm.filterMap Event.recorded?
  rw [List.filterMap_flatMap] at hanswered
  obtain ⟨c, hc, hk⟩ := List.mem_flatMap.mp (hanswered.mem_iff.mp hk)
  rw [(hchecks c hc).answered_partition hk]
  exact List.mem_map_of_mem (List.mem_map_of_mem hc)

end

/-! ## The steps of the oracle -/

section

variable {σ : Type} (desk : QueryDesk (StateM σ)) (timeoutMs : UInt64)

theorem shows_query (key : QueryKey) (conditions : List Expr) :
    Shows desk.CanEmit (query desk.observed timeoutMs key conditions)
      (query desk timeoutMs key conditions) fun r es => Asks timeoutMs key conditions es r := by
  refine shows_bind (shows_noting fun s => ⟨s, rfl⟩) ?_
  rintro cancelled es rfl
  cases cancelled with
  | true => exact shows_pure .cancelled
  | false =>
    simp only [Bool.false_eq_true, if_false]
    cases hq : Query.build key.kind conditions timeoutMs with
    | error e => exact shows_pure (.malformed hq)
    | ok q =>
      refine shows_bind (shows_noting fun s => ⟨s, rfl⟩) ?_
      rintro (e | answer) es rfl
      · exact shows_pure (.failed hq)
      · refine shows_bind (shows_noting fun s => ⟨s, rfl⟩) ?_
        rintro (e | ⟨⟩) es rfl
        · exact shows_pure (.lost hq)
        · exact shows_pure (.answered hq)

theorem shows_queryRelation (key : QueryKey) (pc v1 v2 : Expr) (equal : Bool) :
    Shows desk.CanEmit (queryRelation desk.observed timeoutMs key pc v1 v2 equal)
      (queryRelation desk timeoutMs key pc v1 v2 equal)
      fun r es => Relates timeoutMs key pc v1 v2 equal es r := by
  unfold queryRelation
  cases hrel : relate v1 v2 equal with
  | error e => exact shows_pure (.malformed hrel)
  | ok relation =>
    exact shows_mono (shows_query desk timeoutMs key [pc, relation]) (fun _ h => h)
      fun _ _ h => .asked hrel h

theorem shows_compareReturned (iteration : UInt32) (p : Partition) (pc : Status) (v1 v2 : Expr) :
    Shows desk.CanEmit (compareReturned desk.observed timeoutMs iteration p pc v1 v2)
      (compareReturned desk timeoutMs iteration p pc v1 v2)
      fun r es => Compares timeoutMs iteration p v1 v2 pc es r := by
  unfold compareReturned
  refine shows_bind (shows_queryRelation desk timeoutMs _ _ _ _ _) ?_
  rintro (e | neq) es hneq
  · exact shows_pure (by rw [List.append_nil]; exact .failed hneq)
  by_cases hsat : (decide (neq = .sat) && p.hasUif) = true
  · simp only [hsat, if_true]
    simp only [Bool.and_eq_true, decide_eq_true_eq] at hsat
    obtain ⟨rfl, hu⟩ := hsat
    refine shows_bind (shows_queryRelation desk timeoutMs _ _ _ _ _) ?_
    rintro (e | eq) es' heq
    · exact shows_pure (by simpa using Compares.undecided hneq hu heq)
    · exact shows_pure (by simpa using Compares.weighed hneq hu heq)
  · simp only [hsat]
    refine shows_pure ?_
    rw [List.append_nil]
    refine .decided hneq fun h => ?_
    simpa [h] using hsat

theorem shows_investigate (iteration : UInt32) (p : Partition) :
    Shows desk.CanEmit (investigate desk.observed timeoutMs iteration p)
      (investigate desk timeoutMs iteration p)
      fun r es => Investigates timeoutMs iteration p es r := by
  unfold investigate
  refine shows_bind (shows_query desk timeoutMs _ _) ?_
  rintro (e | pc) es hpc
  · exact shows_pure (by rw [List.append_nil]; exact .failed hpc)
  by_cases hunsat : pc = .unsat
  · subst hunsat
    exact shows_pure (by rw [List.append_nil]; exact .unreachable hpc)
  simp only [hunsat, if_false]
  cases h1 : p.v1.expr? with
  | none => exact shows_pure (by rw [List.append_nil]; exact .raised hpc hunsat (.inl h1))
  | some v1 =>
    cases h2 : p.v2.expr? with
    | none => exact shows_pure (by rw [List.append_nil]; exact .raised hpc hunsat (.inr h2))
    | some v2 =>
      exact shows_mono (shows_compareReturned desk timeoutMs iteration p pc v1 v2) (fun _ h => h)
        fun _ _ h => Investigates.compared hpc hunsat h1 h2 h

theorem shows_check (iteration : UInt32) (p : Partition) :
    Shows desk.CanEmit (check desk.observed timeoutMs iteration p)
      (check desk timeoutMs iteration p)
      fun v es => Checks timeoutMs iteration p es v := by
  unfold check
  refine shows_bind (shows_silent desk.now) ?_
  rintro start es rfl
  refine shows_bind (shows_investigate desk timeoutMs iteration p) ?_
  rintro ⟨statuses, failure⟩ es hes
  refine shows_bind (shows_silent desk.now) ?_
  rintro finish es' rfl
  exact shows_pure ⟨statuses, failure, _, by simpa using hes, rfl⟩

theorem shows_checkAll (iteration : UInt32) (partitions : List Partition) :
    Shows desk.CanEmit (checkAll desk.observed timeoutMs iteration partitions)
      (checkAll desk timeoutMs iteration partitions)
      fun verdicts es => ChecksAll timeoutMs iteration partitions es verdicts := by
  fun_induction checkAll desk timeoutMs iteration partitions with
  | case1 =>
    rw [checkAll]
    exact shows_pure .nil
  | case2 p rest k ih =>
    rw [checkAll]
    refine shows_bind (shows_check desk timeoutMs iteration _) ?_
    intro v es hv
    refine shows_bind ih ?_
    intro verdicts es' hrest
    exact shows_pure (by rw [List.append_nil]; exact hrest.insertIdx hv)

end

end Oracle

end Regression
