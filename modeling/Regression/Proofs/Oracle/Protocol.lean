import Regression.Proofs.Expr.Nodes
import Regression.Proofs.Oracle.Relation
import Regression.Proofs.Oracle.Trace
import Regression.Proofs.Script.Reading

/-!
# The protocol of the queries about a partition

The queries about a partition come in a fixed order, and each of them is due only if the answers so
far leave something open. What was answered and kept is in the verdict. A failure or a cancellation
ends the work, and the verdict says why.

The work on a partition is a number of attempts, all of which but the last one get an answer that is
kept. `Answered` says what holds after such attempts, `Breaks` what holds of a last one that gets
none, and the protocol follows from the two.

* `Oracle.FollowsProtocol`: what the protocol demands of a history and of a verdict.
* `Oracle.Investigates.followsProtocol`: every investigation follows it.
-/

namespace Regression

/-! ## Reading a history -/

namespace Event

/-- The query that was handed to the solver. -/
def query? : Event → Option Query
  | .asked q _ => some q
  | _ => none

/-- Why nothing more is asked about a partition. -/
def breaks? : Event → Option Failure
  | .cancelled true => some .cancelled
  | .asked _ (.error e) => some e
  | .recorded _ _ _ (.error e) => some e
  | _ => none

end Event

namespace History

/-- The queries that were handed to the solver. -/
def queries (h : History) : List Query := h.filterMap Event.query?

@[simp] theorem queries_append (h h' : History) : (h ++ h').queries = h.queries ++ h'.queries :=
  List.filterMap_append

/-- The answer to a query with this key was kept. -/
def Kept (h : History) (key : QueryKey) (status : Status) : Prop :=
  ∃ q answer, .recorded key q answer (.ok ()) ∈ h ∧ answer.status = status

/-- Where events are singled out, and only the last one is of that kind, no other one can be met. -/
theorem eq_last {P : Event → Prop} {init before after : History} {x e : Event}
    (heq : init ++ [x] = before ++ e :: after) (hinit : ∀ y ∈ init, ¬ P y) (he : P e) :
    after = [] ∧ before = init ∧ e = x := by
  rcases List.eq_nil_or_concat after with rfl | ⟨rest, y, rfl⟩
  · obtain ⟨hbefore, hlast⟩ := List.append_inj' heq rfl
    exact ⟨rfl, hbefore.symm, (List.singleton_inj.mp hlast).symm⟩
  · rw [List.concat_eq_append, ← List.cons_append, ← List.append_assoc] at heq
    obtain ⟨hrest, -⟩ := List.append_inj' heq rfl
    exact absurd he (hinit e (by simp [hrest]))

theorem kept_append {h h' : History} {key : QueryKey} {status : Status} :
    (h ++ h').Kept key status ↔ h.Kept key status ∨ h'.Kept key status := by
  simp only [Kept, List.mem_append, or_and_right, exists_or]

end History

/-! ## What is asked -/

namespace Partition

/-- What a query about a partition asserts: the path condition, and for two results that they differ
or that they are equal. Texts have operators of their own. -/
inductive Asserts (p : Partition) : QueryKind → List Expr → Prop
  | pc : Asserts p .pc [p.pc]
  | neq {v1 v2 : Expr} {sort : ValueSort} (v1_eq : p.v1.expr? = some v1)
    (v2_eq : p.v2.expr? = some v2) (sort_eq : v1.sort? = .ok sort) :
    Asserts p .neq [p.pc, .mk (if sort = .string then .notEquals else .ne) v1 v2]
  | eq {v1 v2 : Expr} {sort : ValueSort} (v1_eq : p.v1.expr? = some v1)
    (v2_eq : p.v2.expr? = some v2) (sort_eq : v1.sort? = .ok sort) :
    Asserts p .eq [p.pc, .mk (if sort = .string then .equals else .eq) v1 v2]

/-- The query of a kind about a partition. Its script says what is asserted. -/
def Poses (p : Partition) (timeoutMs : UInt64) (kind : QueryKind) (q : Query) : Prop :=
  ∃ conditions, p.Asserts kind conditions ∧ Query.build kind conditions timeoutMs = .ok q ∧
    q.kind = kind ∧ q.Says conditions timeoutMs

/-- Why a partition has no query of a kind: the results are compared and the first one has no sort,
or what is asserted has no form in a script. -/
inductive Unposable (p : Partition) (timeoutMs : UInt64) (kind : QueryKind) : Malformed → Prop
  | unsorted {v1 : Expr} {m : Malformed} (compares : kind ≠ .pc) (v1_eq : p.v1.expr? = some v1)
    (sort_eq : v1.sort? = .error m) : Unposable p timeoutMs kind m
  | unwritten {conditions : List Expr} {m : Malformed} (asserts : p.Asserts kind conditions)
    (script : Script.ofAssertions conditions timeoutMs = .error m) : Unposable p timeoutMs kind m

/-- When a query about a partition is due: the path may be taken and both versions return, and the
results can differ although an uninterpreted function is applied. -/
def Due (p : Partition) (iteration : UInt32) (h : History) : QueryKind → Prop
  | .pc => True
  | .neq => (∃ status, h.Kept ⟨iteration, p.index, .pc⟩ status ∧ status ≠ .unsat) ∧
    p.v1.raised? = none ∧ p.v2.raised? = none
  | .eq => h.Kept ⟨iteration, p.index, .neq⟩ .sat ∧ ∃ e ∈ p.exprs, e.AppliesUif

theorem Due.append {p : Partition} {iteration : UInt32} {h : History} {kind : QueryKind}
    (due : p.Due iteration h kind) (h' : History) : p.Due iteration (h ++ h') kind := by
  cases kind with
  | pc => trivial
  | neq =>
    obtain ⟨⟨status, hkept, hne⟩, hreturns⟩ := due
    exact ⟨⟨status, History.kept_append.mpr (.inl hkept), hne⟩, hreturns⟩
  | eq => exact ⟨History.kept_append.mpr (.inl due.1), due.2⟩

theorem Asserts.poses {p : Partition} {timeoutMs : UInt64} {kind : QueryKind}
    {conditions : List Expr} {q : Query} (asserts : p.Asserts kind conditions)
    (build : Query.build kind conditions timeoutMs = .ok q) : p.Poses timeoutMs q.kind q := by
  have hkind : q.kind = kind := Query.kind_of_build build
  exact ⟨conditions, hkind ▸ asserts, hkind ▸ build, rfl, Query.says_of_build build⟩

end Partition

/-- The status that a verdict has for a kind of queries. -/
def Verdict.status (v : Verdict) : QueryKind → Option Status
  | .pc => v.pcStatus
  | .neq => v.neqStatus
  | .eq => v.eqStatus

namespace Oracle

/-- The answers that statuses stand for. -/
def Statuses.answers (statuses : Statuses) : List (QueryKind × Status) :=
  statuses.pc.toList.map (.pc, ·) ++ statuses.neq.toList.map (.neq, ·) ++
    statuses.eq.toList.map (.eq, ·)

/-- The protocol of the queries about a partition. -/
structure FollowsProtocol (timeoutMs : UInt64) (iteration : UInt32) (p : Partition) (h : History)
    (v : Verdict) : Prop where
  order : h.queries.map (·.kind) <+: [.pc, .neq, .eq]
  posed : ∀ q ∈ h.queries, p.Poses timeoutMs q.kind q
  due : ∀ q ∈ h.queries, p.Due iteration h q.kind
  /-- Whatever is due is asked if nothing fails and nothing is cancelled. -/
  asked : v.error = none → ∀ kind, p.Due iteration h kind → kind ∈ h.queries.map (·.kind)
  recorded : ∀ key q answer result, .recorded key q answer result ∈ h →
    key = ⟨iteration, p.index, q.kind⟩ ∧ .asked q (.ok answer) ∈ h
  /-- What is known does not depend on how the work ended. -/
  status : ∀ kind, kind = .pc ∨ p.v1.raised? = none ∧ p.v2.raised? = none → ∀ status,
    v.status kind = some status ↔ h.Kept ⟨iteration, p.index, kind⟩ status
  ended : ∀ before e after failure, h = before ++ e :: after → e.breaks? = some failure →
    after = [] ∧ v.error = some failure.message
  error : ∀ text, v.error = some text →
    (∃ e failure, h.getLast? = some e ∧ e.breaks? = some failure ∧ text = failure.message) ∨
      ∃ kind m, p.Due iteration h kind ∧ kind ∉ h.queries.map (·.kind) ∧
        p.Unposable timeoutMs kind m ∧ text = (Failure.malformed m).message
  /-- Answers are kept in the order of the queries, each of them once. -/
  answered : h.answered <+: [.pc, .neq, .eq].map fun kind => ⟨iteration, p.index, kind⟩

section

variable {timeoutMs : UInt64} {iteration : UInt32} {p : Partition} {h es : History}
  {kind : QueryKind}

/-! ## Attempts -/

/-- An attempt to have a query answered. -/
inductive Attempts (timeoutMs : UInt64) (iteration : UInt32) (p : Partition) (kind : QueryKind) :
    History → Except Failure Status → Prop
  | unposed {m : Malformed} (unposable : p.Unposable timeoutMs kind m) :
    Attempts timeoutMs iteration p kind [] (.error (.malformed m))
  | asked {conditions : List Expr} {es : History} {r : Except Failure Status}
    (asserts : p.Asserts kind conditions)
    (asks : Asks timeoutMs ⟨iteration, p.index, kind⟩ conditions es r) :
    Attempts timeoutMs iteration p kind es r

theorem relate_eq_ok {v1 v2 relation : Expr} {equal : Bool}
    (h : relate v1 v2 equal = .ok relation) : ∃ sort, v1.sort? = .ok sort ∧
      relation = .mk (if sort = .string then (if equal then .equals else .notEquals)
        else if equal then .eq else .ne) v1 v2 := by
  rw [relate] at h
  obtain ⟨sort, hsort, h⟩ := bind_eq_ok.mp h
  cases h
  exact ⟨sort, hsort, rfl⟩

theorem relate_eq_error {v1 v2 : Expr} {equal : Bool} {m : Malformed}
    (h : relate v1 v2 equal = .error m) : v1.sort? = .error m := by
  rw [relate] at h
  cases hsort : v1.sort? with
  | error m' =>
    rw [hsort] at h
    cases h
    rfl
  | ok sort =>
    rw [hsort] at h
    cases h

/-- A query about two results is an attempt. -/
theorem Relates.attempts {v1 v2 : Expr} {equal : Bool} {r : Except Failure Status}
    (v1_eq : p.v1.expr? = some v1) (v2_eq : p.v2.expr? = some v2)
    (h : Relates timeoutMs ⟨iteration, p.index, kind⟩ p.pc v1 v2 equal es r)
    (hkind : kind = if equal then .eq else .neq) : Attempts timeoutMs iteration p kind es r := by
  cases h with
  | malformed relation =>
    have hcompares : kind ≠ .pc := by
      cases equal <;> rw [hkind] <;> decide
    exact .unposed (.unsorted hcompares v1_eq (relate_eq_error relation))
  | asked relation_eq asks =>
    obtain ⟨sort, hsort, rfl⟩ := relate_eq_ok relation_eq
    refine .asked ?_ asks
    cases equal with
    | true => exact hkind ▸ .eq v1_eq v2_eq hsort
    | false => exact hkind ▸ .neq v1_eq v2_eq hsort

/-! ### Attempts that get an answer -/

/-- What holds after attempts that got these answers. -/
structure Answered (timeoutMs : UInt64) (iteration : UInt32) (p : Partition)
    (answers : List (QueryKind × Status)) (h : History) : Prop where
  queries : h.queries.map (·.kind) = answers.map (·.1)
  posed : ∀ q ∈ h.queries, p.Poses timeoutMs q.kind q
  recorded : ∀ key q answer result, .recorded key q answer result ∈ h →
    key = ⟨iteration, p.index, q.kind⟩ ∧ .asked q (.ok answer) ∈ h
  kept : ∀ kind status, h.Kept ⟨iteration, p.index, kind⟩ status ↔ (kind, status) ∈ answers
  answered : h.answered = answers.map fun a => ⟨iteration, p.index, a.1⟩
  unbroken : ∀ e ∈ h, e.breaks? = none

/-- The answer that is recorded is the one that was given. -/
theorem recorded_of_mem {q : Query} {answer : Answer} {result : Except Failure Unit}
    (hkind : q.kind = kind) {key : QueryKey} {q' : Query} {answer' : Answer}
    {result' : Except Failure Unit}
    (hmem : .recorded key q' answer' result' ∈ ([.cancelled false, .asked q (.ok answer),
      .recorded ⟨iteration, p.index, kind⟩ q answer result] : History)) :
    key = ⟨iteration, p.index, q'.kind⟩ ∧ .asked q' (.ok answer') ∈ ([.cancelled false,
      .asked q (.ok answer), .recorded ⟨iteration, p.index, kind⟩ q answer result] : History) := by
  obtain ⟨rfl, rfl, rfl, rfl⟩ : key = ⟨iteration, p.index, kind⟩ ∧ q' = q ∧ answer' = answer ∧
      result' = result := by simpa using hmem
  exact ⟨by rw [hkind], by simp⟩

theorem Attempts.answered {status : Status}
    (attempts : Attempts timeoutMs iteration p kind es (.ok status)) :
    Answered timeoutMs iteration p [(kind, status)] es := by
  cases attempts with
  | asked asserts asks =>
    cases asks with
    | @answered q answer build =>
      have hkind : q.kind = kind := Query.kind_of_build build
      refine ⟨?_, ?_, fun _ _ _ _ => recorded_of_mem hkind, ?_, rfl, ?_⟩
      · exact congrArg (fun kind => [kind]) hkind
      · simpa [History.queries, Event.query?] using asserts.poses build
      · intro kind' status'
        simp [History.Kept, eq_comm]
      · simp [Event.breaks?]

/-- Answers that are recorded one after the other belong to their queries if those of each part
do. -/
theorem recorded_append
    (recorded : ∀ key q answer result, .recorded key q answer result ∈ h →
      key = ⟨iteration, p.index, q.kind⟩ ∧ .asked q (.ok answer) ∈ h)
    (recorded' : ∀ key q answer result, .recorded key q answer result ∈ es →
      key = ⟨iteration, p.index, q.kind⟩ ∧ .asked q (.ok answer) ∈ es)
    (key : QueryKey) (q : Query) (answer : Answer) (result : Except Failure Unit)
    (hmem : .recorded key q answer result ∈ h ++ es) :
    key = ⟨iteration, p.index, q.kind⟩ ∧ .asked q (.ok answer) ∈ h ++ es := by
  rcases List.mem_append.mp hmem with hmem | hmem
  · exact (recorded key q answer result hmem).imp_right (List.mem_append_left _)
  · exact (recorded' key q answer result hmem).imp_right (List.mem_append_right _)

theorem Answered.append {answers answers' : List (QueryKind × Status)}
    (answered : Answered timeoutMs iteration p answers h)
    (answered' : Answered timeoutMs iteration p answers' es) :
    Answered timeoutMs iteration p (answers ++ answers') (h ++ es) where
  queries := by
    rw [History.queries_append, List.map_append, List.map_append, answered.queries,
      answered'.queries]
  posed := by
    rw [History.queries_append]
    exact List.forall_mem_append.mpr ⟨answered.posed, answered'.posed⟩
  recorded := recorded_append answered.recorded answered'.recorded
  kept kind status := by
    rw [History.kept_append, answered.kept, answered'.kept, List.mem_append]
  answered := by
    rw [History.answered_append, answered.answered, answered'.answered, List.map_append]
  unbroken := List.forall_mem_append.mpr ⟨answered.unbroken, answered'.unbroken⟩

theorem Answered.nil : Answered timeoutMs iteration p [] [] :=
  ⟨rfl, by simp [History.queries], by simp, by simp [History.Kept], rfl, by simp⟩

section

variable {answers : List (QueryKind × Status)}

theorem Answered.due_neq (answered : Answered timeoutMs iteration p answers h) :
    p.Due iteration h .neq ↔ (∃ status, (.pc, status) ∈ answers ∧ status ≠ .unsat) ∧
      p.v1.raised? = none ∧ p.v2.raised? = none := by
  simp only [Partition.Due, answered.kept]

theorem Answered.due_eq (answered : Answered timeoutMs iteration p answers h) :
    p.Due iteration h .eq ↔ (.neq, .sat) ∈ answers ∧ p.hasUif := by
  rw [Partition.Due, answered.kept, Partition.hasUif_iff]

end

/-! ### Attempts that get none -/

/-- What holds of an attempt without an answer that is kept. -/
structure Breaks (timeoutMs : UInt64) (iteration : UInt32) (p : Partition) (kind : QueryKind)
    (es : History) (e : Failure) : Prop where
  queries : es.queries.map (·.kind) <+: [kind]
  posed : ∀ q ∈ es.queries, p.Poses timeoutMs q.kind q
  recorded : ∀ key q answer result, .recorded key q answer result ∈ es →
    key = ⟨iteration, p.index, q.kind⟩ ∧ .asked q (.ok answer) ∈ es
  kept : ∀ key status, ¬ es.Kept key status
  answered : es.answered <+: [⟨iteration, p.index, kind⟩]
  /-- The attempt ends with the event that broke it, unless there is no such query. -/
  breaks : (∃ init x, es = init ++ [x] ∧ (∀ y ∈ init, y.breaks? = none) ∧ x.breaks? = some e) ∨
    (∀ y ∈ es, y.breaks? = none) ∧ es.queries = [] ∧
      ∃ m, p.Unposable timeoutMs kind m ∧ e = .malformed m

theorem Attempts.breaks {e : Failure}
    (attempts : Attempts timeoutMs iteration p kind es (.error e)) :
    Breaks timeoutMs iteration p kind es e := by
  cases attempts with
  | unposed unposable =>
    exact ⟨List.nil_prefix, by simp [History.queries], by simp, by simp [History.Kept],
      List.nil_prefix, .inr ⟨by simp, rfl, _, unposable, rfl⟩⟩
  | asked asserts asks =>
    cases asks with
    | cancelled =>
      exact ⟨List.nil_prefix, by simp [History.queries, Event.query?], by simp,
        by simp [History.Kept], List.nil_prefix, .inl ⟨[], _, rfl, by simp, rfl⟩⟩
    | malformed build =>
      exact ⟨List.nil_prefix, by simp [History.queries, Event.query?], by simp,
        by simp [History.Kept], List.nil_prefix,
        .inr ⟨by simp [Event.breaks?], rfl, _, .unwritten asserts (Query.script_of_build build), rfl⟩⟩
    | @failed q e build =>
      have hkind : q.kind = kind := Query.kind_of_build build
      refine ⟨?_, ?_, by simp, by simp [History.Kept], List.nil_prefix,
        .inl ⟨[_], _, rfl, by simp [Event.breaks?], rfl⟩⟩
      · exact hkind ▸ List.prefix_rfl
      · simpa [History.queries, Event.query?] using asserts.poses build
    | @lost q answer e build =>
      have hkind : q.kind = kind := Query.kind_of_build build
      refine ⟨?_, ?_, fun _ _ _ _ => recorded_of_mem hkind, by simp [History.Kept],
        List.prefix_rfl, .inl ⟨[_, _], _, rfl, by simp [Event.breaks?], rfl⟩⟩
      · exact hkind ▸ List.prefix_rfl
      · simpa [History.queries, Event.query?] using asserts.poses build

/-! ## Investigations -/

variable {answers : List (QueryKind × Status)} {statuses : Statuses} {runtime : Duration}

/-- An investigation in which everything was answered follows the protocol if everything that was
due was asked, and nothing else. -/
theorem Answered.followsProtocol (answered : Answered timeoutMs iteration p answers h)
    (order : answers.map (·.1) <+: [.pc, .neq, .eq])
    (due : ∀ kind, p.Due iteration h kind ↔ kind ∈ answers.map (·.1))
    (status : ∀ kind, kind = .pc ∨ p.v1.raised? = none ∧ p.v2.raised? = none → ∀ status,
      (conclude p statuses none runtime).status kind = some status ↔ (kind, status) ∈ answers) :
    FollowsProtocol timeoutMs iteration p h (conclude p statuses none runtime) where
  order := by rw [answered.queries]; exact order
  posed := answered.posed
  due q hq := by
    rw [due, ← answered.queries]
    exact List.mem_map_of_mem hq
  asked _ kind hdue := by
    rw [answered.queries]
    exact (due kind).mp hdue
  recorded := answered.recorded
  status kind hreturns status' := by rw [status kind hreturns, answered.kept]
  ended before e after failure heq hbreaks := by
    have hnone : e.breaks? = none := answered.unbroken e (by simp [heq])
    rw [hnone] at hbreaks
    cases hbreaks
  error := by rintro text ⟨⟩
  answered := by
    have hkinds := order.map fun kind => (⟨iteration, p.index, kind⟩ : QueryKey)
    rw [List.map_map] at hkinds
    rw [answered.answered]
    exact hkinds

/-- What is asked ends with the attempt that gets no answer. -/
theorem Answered.queries_of_breaks {e : Failure}
    (answered : Answered timeoutMs iteration p answers h)
    (breaks : Breaks timeoutMs iteration p kind es e) :
    (h ++ es).queries.map (·.kind) <+: answers.map (·.1) ++ [kind] := by
  rw [History.queries_append, List.map_append, answered.queries]
  exact (List.prefix_append_right_inj _).mpr breaks.queries

/-- The event that breaks an attempt off is the last one, and there is no other such event. -/
theorem Answered.ended_of_breaks {e : Failure}
    (answered : Answered timeoutMs iteration p answers h)
    (breaks : Breaks timeoutMs iteration p kind es e) {before after : History} {x : Event}
    {failure : Failure} (heq : h ++ es = before ++ x :: after)
    (hbreaks : x.breaks? = some failure) : after = [] ∧ e = failure := by
  rcases breaks.breaks with ⟨init, last, rfl, hinit, hlast⟩ | ⟨hnone, -⟩
  · rw [← List.append_assoc] at heq
    obtain ⟨rfl, -, rfl⟩ := History.eq_last (P := fun y => y.breaks? ≠ none) heq
      (by simpa using List.forall_mem_append.mpr ⟨answered.unbroken, hinit⟩) (by simp [hbreaks])
    rw [hlast] at hbreaks
    exact ⟨rfl, Option.some.inj hbreaks⟩
  · have hx : x.breaks? = none :=
      List.forall_mem_append.mpr ⟨answered.unbroken, hnone⟩ x (by simp [heq])
    rw [hx] at hbreaks
    cases hbreaks

/-- An investigation that breaks off follows the protocol if what was asked was due. -/
theorem Answered.followsProtocol_of_breaks {e : Failure}
    (answered : Answered timeoutMs iteration p answers h)
    (breaks : Breaks timeoutMs iteration p kind es e)
    (order : answers.map (·.1) ++ [kind] <+: [.pc, .neq, .eq])
    (due : ∀ kind' ∈ answers.map (·.1) ++ [kind], p.Due iteration h kind')
    (status : ∀ kind status,
      (conclude p statuses (some e) runtime).status kind = some status ↔ (kind, status) ∈ answers) :
    FollowsProtocol timeoutMs iteration p (h ++ es) (conclude p statuses (some e) runtime) where
  order := (answered.queries_of_breaks breaks).trans order
  posed := by
    rw [History.queries_append]
    exact List.forall_mem_append.mpr ⟨answered.posed, breaks.posed⟩
  due q hq :=
    (due _ ((answered.queries_of_breaks breaks).subset (List.mem_map_of_mem hq))).append es
  asked := by rintro ⟨⟩
  recorded := recorded_append answered.recorded breaks.recorded
  status kind' _ status' := by
    rw [status, History.kept_append, answered.kept, or_iff_left (breaks.kept _ _)]
  ended before x after failure heq hbreaks := by
    obtain ⟨hafter, rfl⟩ := answered.ended_of_breaks breaks heq hbreaks
    exact ⟨hafter, rfl⟩
  error := by
    rintro text ⟨⟩
    rcases breaks.breaks with ⟨init, last, rfl, -, hlast⟩ | ⟨-, hnone, m, unposable, rfl⟩
    · exact .inl ⟨last, e, by simp, hlast, rfl⟩
    · refine .inr ⟨kind, m, (due kind (by simp)).append es, ?_, unposable, rfl⟩
      have hnodup : (answers.map (·.1) ++ [kind]).Nodup := order.sublist.nodup (by decide)
      rw [History.queries_append, hnone, List.append_nil, answered.queries]
      exact fun hmem => (List.nodup_append.mp hnodup).2.2 _ hmem _ List.mem_cons_self rfl
  answered := by
    have hkinds := order.map fun kind => (⟨iteration, p.index, kind⟩ : QueryKey)
    rw [List.map_append, List.map_map, List.map_singleton] at hkinds
    rw [History.answered_append, answered.answered]
    exact ((List.prefix_append_right_inj _).mpr breaks.answered).trans hkinds

/-- A verdict has the statuses that it was concluded from. -/
theorem status_conclude_iff {failure : Option Failure} (kind : QueryKind) (status : Status) :
    (conclude p statuses failure runtime).status kind = some status ↔
      (kind, status) ∈ statuses.answers := by
  cases kind <;> simp [conclude, Verdict.status, Statuses.answers, eq_comm]

/-- If a result is no expression, a version raised an error. -/
theorem not_bothReturn (raises : p.v1.expr? = none ∨ p.v2.expr? = none) :
    ¬ (p.v1.raised? = none ∧ p.v2.raised? = none) := by
  have hraised {o : Outcome} (hnone : o.expr? = none) : o.raised? ≠ none := by
    obtain ⟨error, rfl⟩ := Outcome.raised_of_expr? hnone
    exact nofun
  rintro ⟨h1, h2⟩
  exact raises.elim (hraised · h1) (hraised · h2)

/-- Only the path condition is due if its answer leaves nothing open, or if a version raised an
error. -/
theorem Answered.due_pc {pc : Status} (answered : Answered timeoutMs iteration p [(.pc, pc)] h)
    (closed : pc = .unsat ∨ ¬ (p.v1.raised? = none ∧ p.v2.raised? = none)) (kind : QueryKind) :
    p.Due iteration h kind ↔ kind ∈ [(QueryKind.pc, pc)].map (·.1) := by
  cases kind with
  | pc => simp [Partition.Due]
  | neq =>
    rw [answered.due_neq]
    refine iff_of_false ?_ (by simp)
    rintro ⟨⟨status, hstatus, hopen⟩, hreturns⟩
    obtain rfl : status = pc := by simpa using hstatus
    exact closed.elim hopen fun hraised => hraised hreturns
  | eq => simp [answered.due_eq]

/-- The comparison of two results follows the protocol behind the query about the path. -/
theorem Compares.followsProtocol {pc : Status} {v1 v2 : Expr} {failure : Option Failure}
    (compares : Compares timeoutMs iteration p v1 v2 pc es (statuses, failure))
    (answered : Answered timeoutMs iteration p [(.pc, pc)] h)
    (v1_eq : p.v1.expr? = some v1) (v2_eq : p.v2.expr? = some v2)
    (due : p.Due iteration h .neq) :
    FollowsProtocol timeoutMs iteration p (h ++ es) (conclude p statuses failure runtime) := by
  cases compares with
  | failed neq =>
    have breaks := (neq.attempts v1_eq v2_eq rfl).breaks
    refine answered.followsProtocol_of_breaks breaks ⟨[.eq], rfl⟩ ?_ status_conclude_iff
    simpa [Partition.Due] using due
  | @decided _ neq neq_eq certain =>
    have answered₂ := answered.append (neq_eq.attempts v1_eq v2_eq rfl).answered
    refine answered₂.followsProtocol ⟨[.eq], rfl⟩ (fun kind => ?_) fun kind _ =>
      status_conclude_iff kind
    cases kind with
    | pc => simp [Partition.Due]
    | neq => exact iff_of_true (due.append es) (by simp)
    | eq =>
      have hcertain : .sat = neq → p.hasUif = false := fun h => certain h.symm
      rw [answered₂.due_eq]
      simpa using hcertain
  | @undecided es es' _ neq abstract eq =>
    have answered₂ := answered.append (neq.attempts v1_eq v2_eq rfl).answered
    have breaks := (eq.attempts v1_eq v2_eq rfl).breaks
    have hdue : p.Due iteration (h ++ es) .eq := answered₂.due_eq.mpr ⟨by simp, abstract⟩
    rw [← List.append_assoc]
    refine answered₂.followsProtocol_of_breaks breaks ⟨[], rfl⟩ ?_ status_conclude_iff
    simpa [Partition.Due] using ⟨due.append es, hdue⟩
  | @weighed es es' eq neq abstract eq_eq =>
    have answered₂ := answered.append (neq.attempts v1_eq v2_eq rfl).answered
    have answered₃ := answered₂.append (eq_eq.attempts v1_eq v2_eq rfl).answered
    rw [← List.append_assoc]
    refine answered₃.followsProtocol ⟨[], rfl⟩ (fun kind => ?_) fun kind _ =>
      status_conclude_iff kind
    cases kind with
    | pc => simp [Partition.Due]
    | neq => exact iff_of_true ((due.append es).append es') (by simp)
    | eq => exact iff_of_true (answered₃.due_eq.mpr ⟨by simp, abstract⟩) (by simp)

/-- The work on a partition follows the protocol. -/
theorem Investigates.followsProtocol {failure : Option Failure}
    (investigates : Investigates timeoutMs iteration p es (statuses, failure)) :
    FollowsProtocol timeoutMs iteration p es (conclude p statuses failure runtime) := by
  cases investigates with
  | failed pc =>
    have breaks := (Attempts.asked .pc pc).breaks
    exact Answered.nil.followsProtocol_of_breaks breaks ⟨[.neq, .eq], rfl⟩
      (by simp [Partition.Due]) status_conclude_iff
  | unreachable pc =>
    have answered := (Attempts.asked .pc pc).answered
    exact answered.followsProtocol ⟨[.neq, .eq], rfl⟩ (answered.due_pc (.inl rfl)) fun kind _ =>
      status_conclude_iff kind
  | raised pc_eq _ raises =>
    have answered := (Attempts.asked .pc pc_eq).answered
    refine answered.followsProtocol ⟨[.neq, .eq], rfl⟩
      (answered.due_pc (.inr (not_bothReturn raises))) ?_
    -- the other statuses say how the errors compare, and not what was answered
    rintro kind (rfl | hreturns) status
    · simp [conclude, Verdict.status, eq_comm]
    · exact absurd hreturns (not_bothReturn raises)
  | @compared es es' pc v1 v2 _ pc_eq open_ v1_eq v2_eq compares =>
    have answered := (Attempts.asked .pc pc_eq).answered
    have hreturns : p.v1.raised? = none ∧ p.v2.raised? = none :=
      ⟨Outcome.raised?_of_expr? v1_eq, Outcome.raised?_of_expr? v2_eq⟩
    exact compares.followsProtocol answered v1_eq v2_eq
      (answered.due_neq.mpr ⟨⟨pc, by simp, open_⟩, hreturns⟩)

end

end Oracle

end Regression
