import Mathlib.Data.List.Induction
import Regression.Proofs.Store.Relational

/-!
# Sequences of calls

A store is called to put rows and to delete runs; a call that is refused leaves it as it was. What
is read after some calls is told by the calls alone: under each key, the last row that was accepted
since its run was deleted (`StoreWrite.IsLastIn`).

* `MemoryStore.has_putAll`: a store in memory holds just these rows.
* `ResultStore.calls_memory`, `ResultStore.calls_relational`: both kinds of stores give the same
  answers, and hold the same afterwards.
* `stores_interchangeable`: neither the answers nor what is read tell the kinds apart.
-/

namespace Regression

/-! ## Rows that calls leave -/

namespace StoreWrite

/-- A key in one of the tables. -/
inductive Slot where
  | run (key : String × String)
  | iteration (key : String × String × UInt32)
  | partition (key : String × String × UInt32 × UInt32)
  | time (key : String × String × String × String)
  deriving DecidableEq

/-- Where a call puts a row, if it puts one. -/
def slot? : StoreWrite → Option Slot
  | .run r => some (.run r.key)
  | .iteration r => some (.iteration r.key)
  | .partition r => some (.partition r.key)
  | .time r => some (.time r.key)
  | .deleteRun .. => none

/-- The run that a call is about, as benchmark and tool. -/
def owner : StoreWrite → String × String
  | .run r => r.owner
  | .iteration r => r.owner
  | .partition r => r.owner
  | .time r => r.owner
  | .deleteRun benchmark tool => (benchmark, tool)

def isAccepted (w : StoreWrite) : Bool := w.validate.isOk

/-- A call that is accepted takes away the row of another one: it puts a row in its place, or
deletes its run. -/
def Displaces (w' w : StoreWrite) : Prop :=
  w'.isAccepted ∧ (w'.slot? = w.slot? ∨ w' = .deleteRun w.owner.1 w.owner.2)

/-- Among some calls, the last accepted one for its key since the last deletion of its run. -/
def IsLastIn (w : StoreWrite) (ws : List StoreWrite) : Prop :=
  w.slot?.isSome ∧ w.isAccepted ∧
    ∃ before since, ws = before ++ w :: since ∧ ∀ w' ∈ since, ¬w'.Displaces w

theorem not_isLastIn_nil (w : StoreWrite) : ¬w.IsLastIn [] := by
  rintro ⟨-, -, before, since, heq, -⟩
  cases before <;> cases heq

theorem IsLastIn.mem {w : StoreWrite} {ws : List StoreWrite} (h : w.IsLastIn ws) : w ∈ ws := by
  obtain ⟨-, -, before, since, rfl, -⟩ := h
  exact List.mem_append_right _ List.mem_cons_self

/-- What one more call does to the rows that are left. -/
theorem isLastIn_append_singleton {w w' : StoreWrite} {ws : List StoreWrite} :
    w.IsLastIn (ws ++ [w']) ↔
      (w' = w ∧ w.slot?.isSome ∧ w.isAccepted) ∨ (w.IsLastIn ws ∧ ¬w'.Displaces w) := by
  constructor
  · rintro ⟨hslot, haccepted, before, since, heq, hsince⟩
    rcases List.eq_nil_or_concat since with rfl | ⟨since, x, rfl⟩
    · obtain ⟨-, hw⟩ := List.append_inj' heq rfl
      injection hw with hw
      exact .inl ⟨hw, hslot, haccepted⟩
    · rw [List.concat_eq_append, ← List.cons_append, ← List.append_assoc] at heq
      obtain ⟨hws, hx⟩ := List.append_inj' heq rfl
      injection hx with hx
      rw [List.concat_eq_append] at hsince
      obtain ⟨hsince, hlast⟩ := List.forall_mem_append.mp hsince
      have hdisplaces : ¬w'.Displaces w := hx ▸ hlast x (List.mem_singleton_self x)
      exact .inr ⟨⟨hslot, haccepted, before, since, hws, hsince⟩, hdisplaces⟩
  · rintro (⟨rfl, hslot, haccepted⟩ | ⟨⟨hslot, haccepted, before, since, rfl, hsince⟩, hlast⟩)
    · exact ⟨hslot, haccepted, ws, [], rfl, fun _ h => by cases h⟩
    · refine ⟨hslot, haccepted, before, since ++ [w'], by simp, ?_⟩
      exact List.forall_mem_append.mpr ⟨hsince, List.forall_mem_singleton.mpr hlast⟩

end StoreWrite

/-! ## Rows in memory -/

section

variable {α κ : Type} [DecidableEq κ] {key : α → κ} {record : α} {rows : List α}

theorem mem_putUnder {r : α} :
    r ∈ putUnder key record rows ↔ r = record ∨ (r ∈ rows ∧ key r ≠ key record) := by
  simp [putUnder, or_comm]

theorem nodup_putUnder (h : (rows.map key).Nodup) :
    ((putUnder key record rows).map key).Nodup := by
  have hkept : ((rows.filter (key · ≠ key record)).map key).Nodup :=
    h.sublist (List.filter_sublist.map key)
  have hfresh : key record ∉ (rows.filter (key · ≠ key record)).map key := by
    intro hmem
    obtain ⟨r, hr, hkey⟩ := List.mem_map.mp hmem
    simp [hkey] at hr
  unfold putUnder
  rw [List.map_append, List.map_singleton, List.nodup_append]
  refine ⟨hkept, List.nodup_singleton _, ?_⟩
  rintro k hk k' hk' rfl
  exact hfresh (List.mem_singleton.mp hk' ▸ hk)

omit [DecidableEq κ] in
theorem nodup_filter {p : α → Bool} (h : (rows.map key).Nodup) :
    ((rows.filter p).map key).Nodup :=
  h.sublist (List.filter_sublist.map key)

/-- With different keys, the row that is found under a key is the one that has it. -/
theorem find?_key_eq_some {k : κ} {r : α} (h : (rows.map key).Nodup) :
    rows.find? (key · = k) = some r ↔ r ∈ rows ∧ key r = k := by
  constructor
  · intro hfound
    exact ⟨List.mem_of_find?_eq_some hfound, by simpa using List.find?_some hfound⟩
  · rintro ⟨hr, rfl⟩
    cases hfound : rows.find? (key · = key r) with
    | none =>
      have hnone := List.find?_eq_none.mp hfound r hr
      simp at hnone
    | some r' =>
      have hr' : r' ∈ rows := List.mem_of_find?_eq_some hfound
      have hkey : key r' = key r := by simpa using List.find?_some hfound
      rw [List.inj_on_of_nodup_map h hr' hr hkey]

end

namespace MemoryStore

/-- The store holds the row that a call puts. -/
def Has (m : MemoryStore) : StoreWrite → Prop
  | .run r => r ∈ m.runs
  | .iteration r => r ∈ m.iterations
  | .partition r => r ∈ m.partitions
  | .time r => r ∈ m.times
  | .deleteRun .. => False

variable {m : MemoryStore} {w w' : StoreWrite} {ws : List StoreWrite}

/-- What one call does to the rows of a store. -/
theorem has_put (haccepted : w'.isAccepted) :
    (m.put w').Has w ↔ (w' = w ∧ w.slot?.isSome) ∨ (m.Has w ∧ ¬w'.Displaces w) := by
  unfold StoreWrite.Displaces
  rw [eq_true haccepted, true_and]
  cases w' with
  | run r => cases w <;> simp [put, Has, StoreWrite.slot?, mem_putUnder, eq_comm]
  | iteration r => cases w <;> simp [put, Has, StoreWrite.slot?, mem_putUnder, eq_comm]
  | partition r => cases w <;> simp [put, Has, StoreWrite.slot?, mem_putUnder, eq_comm]
  | time r => cases w <;> simp [put, Has, StoreWrite.slot?, mem_putUnder, eq_comm]
  | deleteRun benchmark tool =>
    have howner (b t : String) : StoreWrite.deleteRun benchmark tool = .deleteRun b t ↔
        b = benchmark ∧ t = tool := by
      simp [eq_comm]
    cases w with
    | deleteRun => simp [Has, StoreWrite.slot?]
    | run | iteration | partition | time =>
      simp [put, Has, StoreWrite.slot?, StoreWrite.owner, howner, RunRecord.owner,
        IterationRecord.owner, PartitionRecord.owner, TimeRecord.owner]
      tauto

/-- A store holds the rows that the calls have left. -/
theorem has_putAll : (empty.putAll (ws.filter (·.isAccepted))).Has w ↔ w.IsLastIn ws := by
  induction ws using List.reverseRecOn with
  | nil =>
    have hnone : ¬(empty.putAll []).Has w := by
      intro h
      cases w <;> cases h
    exact iff_of_false hnone w.not_isLastIn_nil
  | append_singleton ws w' ih =>
    rw [StoreWrite.isLastIn_append_singleton, List.filter_append, putAll_append]
    by_cases haccepted : w'.isAccepted = true
    · rw [List.filter_cons_of_pos haccepted, List.filter_nil, putAll_cons, putAll_nil,
        has_put haccepted, ih]
      constructor
      · rintro (⟨rfl, hslot⟩ | h)
        · exact .inl ⟨rfl, hslot, haccepted⟩
        · exact .inr h
      · rintro (⟨rfl, hslot, -⟩ | h)
        · exact .inl ⟨rfl, hslot⟩
        · exact .inr h
    · have hdisplaces : ¬w'.Displaces w := fun h => haccepted h.1
      rw [List.filter_cons_of_neg haccepted, List.filter_nil, putAll_nil, ih]
      constructor
      · intro h
        exact .inr ⟨h, hdisplaces⟩
      · rintro (⟨rfl, -, h⟩ | ⟨h, -⟩)
        · exact absurd h haccepted
        · exact h

/-- No two rows of a table have the same key. -/
structure IsKeyed (m : MemoryStore) : Prop where
  runs : (m.runs.map RunRecord.key).Nodup
  iterations : (m.iterations.map IterationRecord.key).Nodup
  partitions : (m.partitions.map PartitionRecord.key).Nodup
  times : (m.times.map TimeRecord.key).Nodup

theorem isKeyed_empty : empty.IsKeyed := by
  constructor <;> exact List.nodup_nil

theorem IsKeyed.put (h : m.IsKeyed) (w : StoreWrite) : (m.put w).IsKeyed := by
  cases w with
  | run r => exact { h with runs := nodup_putUnder h.runs }
  | iteration r => exact { h with iterations := nodup_putUnder h.iterations }
  | partition r => exact { h with partitions := nodup_putUnder h.partitions }
  | time r => exact { h with times := nodup_putUnder h.times }
  | deleteRun =>
    exact ⟨nodup_filter h.runs, nodup_filter h.iterations, nodup_filter h.partitions,
      nodup_filter h.times⟩

theorem IsKeyed.putAll (h : m.IsKeyed) (ws : List StoreWrite) : (m.putAll ws).IsKeyed := by
  induction ws generalizing m with
  | nil => exact h
  | cons w ws ih => exact ih (h.put w)

/-! ### Reading -/

section

variable {benchmark tool : String} {iteration : UInt32}

theorem getRun_eq_some (h : m.IsKeyed) {r : RunRecord} :
    m.getRun benchmark tool = some r ↔ r ∈ m.runs ∧ r.key = (benchmark, tool) :=
  find?_key_eq_some h.runs

theorem getIteration_eq_some (h : m.IsKeyed) {r : IterationRecord} :
    m.getIteration benchmark tool iteration = some r ↔
      r ∈ m.iterations ∧ r.key = (benchmark, tool, iteration) :=
  find?_key_eq_some h.iterations

theorem mem_listIterations {r : IterationRecord} :
    r ∈ m.listIterations benchmark tool ↔ r ∈ m.iterations ∧ r.owner = (benchmark, tool) := by
  unfold listIterations
  rw [List.mem_mergeSort, List.mem_filter, decide_eq_true_iff]
  rfl

theorem mem_listPartitions {r : PartitionRecord} :
    r ∈ m.listPartitions benchmark tool iteration ↔
      r ∈ m.partitions ∧ (r.benchmark, r.tool, r.iteration) = (benchmark, tool, iteration) := by
  unfold listPartitions
  rw [List.mem_mergeSort, List.mem_filter, decide_eq_true_iff]

theorem mem_listTimes {r : TimeRecord} :
    r ∈ m.listTimes benchmark tool ↔ r ∈ m.times ∧ r.owner = (benchmark, tool) := by
  unfold listTimes
  rw [List.mem_mergeSort, List.mem_filter, decide_eq_true_iff]
  rfl

end

/-! ### Order -/

/-- Rows that are sorted by a number, and are different in it, come in strictly ascending order. -/
theorem ascending_mergeSort {α : Type} (number : α → UInt32) {rows : List α}
    (hnodup : (rows.map number).Nodup) :
    ((rows.mergeSort fun r r' => number r ≤ number r').map number).Pairwise (· < ·) := by
  have hsorted := sorted_mergeSort number rows
  have hdifferent : ((rows.mergeSort fun r r' => number r ≤ number r').map number).Nodup :=
    ((List.mergeSort_perm rows _).map number).nodup_iff.mpr hnodup
  refine List.pairwise_map.mpr ((hsorted.and (List.pairwise_map.mp hdifferent)).imp ?_)
  rintro r r' ⟨hle, hne⟩
  exact UInt32.lt_of_le_of_ne hle hne

/-- Rows with different keys differ in a number that their keys depend on. -/
theorem nodup_number {α κ : Type} {key : α → κ} {number : α → UInt32} {rows : List α}
    (hnodup : (rows.map key).Nodup)
    (hkey : ∀ r ∈ rows, ∀ r' ∈ rows, number r = number r' → key r = key r') :
    (rows.map number).Nodup := by
  refine List.Nodup.map_on ?_ (List.Nodup.of_map key hnodup)
  intro r hr r' hr' hnumber
  exact List.inj_on_of_nodup_map hnodup hr hr' (hkey r hr r' hr' hnumber)

section

variable {benchmark tool : String} {iteration : UInt32}

theorem ascending_listIterations (h : m.IsKeyed) :
    ((m.listIterations benchmark tool).map (·.iteration)).Pairwise (· < ·) := by
  refine ascending_mergeSort IterationRecord.iteration ?_
  refine nodup_number (nodup_filter h.iterations) ?_
  intro r hr r' hr' hiteration
  have howner : (r.benchmark, r.tool) = (benchmark, tool) := by
    simpa using List.of_mem_filter hr
  have howner' : (r'.benchmark, r'.tool) = (benchmark, tool) := by
    simpa using List.of_mem_filter hr'
  simp_all [IterationRecord.key]

theorem ascending_listPartitions (h : m.IsKeyed) :
    ((m.listPartitions benchmark tool iteration).map (·.partition)).Pairwise (· < ·) := by
  refine ascending_mergeSort PartitionRecord.partition ?_
  refine nodup_number (nodup_filter h.partitions) ?_
  intro r hr r' hr' hpartition
  have howner : (r.benchmark, r.tool, r.iteration) = (benchmark, tool, iteration) := by
    simpa using List.of_mem_filter hr
  have howner' : (r'.benchmark, r'.tool, r'.iteration) = (benchmark, tool, iteration) := by
    simpa using List.of_mem_filter hr'
  simp_all [PartitionRecord.key]

theorem timeLe_iff {r r' : TimeRecord} : timeLe r r' = true ↔ r.step < r'.step ∨ (r.step = r'.step ∧
    (r.topic < r'.topic ∨ (r.topic = r'.topic ∧ r.task ≤ r'.task))) := by
  simp [timeLe]

theorem pairwise_listTimes :
    ((m.listTimes benchmark tool).map (·.step)).Pairwise (· ≤ ·) := by
  have htrans (r r' r'' : TimeRecord) (h : timeLe r r' = true) (h' : timeLe r' r'' = true) :
      timeLe r r'' = true := by
    rw [timeLe_iff] at *
    grind
  have htotal (r r' : TimeRecord) : (timeLe r r' || timeLe r' r) = true := by
    rw [Bool.or_eq_true, timeLe_iff, timeLe_iff]
    grind
  refine List.pairwise_map.mpr ((List.pairwise_mergeSort htrans htotal _).imp ?_)
  intro r r' hle
  rcases timeLe_iff.mp hle with hlt | ⟨heq, -⟩
  · exact UInt32.le_of_lt hlt
  · exact UInt32.le_of_eq heq

theorem nodup_listTimes (h : m.IsKeyed) :
    ((m.listTimes benchmark tool).map TimeRecord.key).Nodup := by
  have hperm := (List.mergeSort_perm (m.times.filter fun r =>
    (r.benchmark, r.tool) = (benchmark, tool)) timeLe).map TimeRecord.key
  exact hperm.nodup_iff.mpr (nodup_filter h.times)

end

end MemoryStore

/-! ## Numbers in calls -/

namespace StoreWrite

/-- The time in a row that a call puts. -/
def runtime? : StoreWrite → Option Binary64
  | .run r => r.runtime
  | .iteration r => r.runtime
  | .partition r => r.runtime
  | .time r => some r.runtime
  | .deleteRun .. => none

/-- The call with the row as a database keeps it. -/
def settled : StoreWrite → StoreWrite
  | .run r => .run r.settled
  | .iteration r => .iteration r.settled
  | .partition r => .partition r.settled
  | .time r => .time r.settled
  | .deleteRun benchmark tool => .deleteRun benchmark tool

/-- All times are finite. -/
def IsFinite (w : StoreWrite) : Prop := ∀ x ∈ w.runtime?, x.isFinite

instance (w : StoreWrite) : Decidable w.IsFinite :=
  inferInstanceAs (Decidable (∀ x ∈ w.runtime?, x.isFinite))

/-- A database keeps all times as they are. -/
def IsKept (w : StoreWrite) : Prop := ∀ x ∈ w.runtime?, x.IsKept

theorem validate_settled (w : StoreWrite) : w.settled.validate = w.validate := by
  cases w <;> rfl

/-- What a database keeps of a row, it keeps as it is. -/
theorem isKept_settled {w : StoreWrite} (h : w.IsFinite) : w.settled.IsKept := by
  have hbind {y? : Option Binary64} : ∀ x ∈ y?.bind Binary64.kept?, x.IsKept := by
    intro x hx
    obtain ⟨y, -, hkept⟩ := Option.bind_eq_some_iff.mp hx
    exact Binary64.isKept_of_kept? hkept
  cases w with
  | run | iteration | partition => exact hbind
  | time r =>
    obtain ⟨y, hy⟩ := Binary64.exists_kept? (Binary64.isNaN_eq_false_of_isFinite (h r.runtime rfl))
    intro x hx
    have hx : x = r.runtime.kept?.getD r.runtime := (Option.some.inj hx).symm
    rw [hx, hy]
    exact Binary64.isKept_of_kept? hy
  | deleteRun =>
    intro x hx
    cases hx

theorem isFinite_settled {w : StoreWrite} (h : w.IsFinite) : w.settled.IsFinite := by
  have hbind {y? : Option Binary64} (hy : ∀ y ∈ y?, y.isFinite) :
      ∀ x ∈ y?.bind Binary64.kept?, x.isFinite := by
    intro x hx
    obtain ⟨y, rfl, hkept⟩ := Option.bind_eq_some_iff.mp hx
    exact Binary64.isFinite_of_kept? (hy y rfl) hkept
  cases w with
  | run | iteration | partition => exact hbind h
  | time r =>
    obtain ⟨y, hy⟩ := Binary64.exists_kept? (Binary64.isNaN_eq_false_of_isFinite (h r.runtime rfl))
    intro x hx
    have hx : x = r.runtime.kept?.getD r.runtime := (Option.some.inj hx).symm
    rw [hx, hy]
    exact Binary64.isFinite_of_kept? (h r.runtime rfl) hy
  | deleteRun =>
    intro x hx
    cases hx

end StoreWrite

/-! ## Calls -/

/-- A relational store does not tell a row from what it keeps of it. -/
theorem RelationalStore.write_settled (t : RelationalStore) (w : StoreWrite) :
    t.write w.settled = t.write w := by
  unfold write
  rw [w.validate_settled]
  cases w with
  | run r => simp only [StoreWrite.settled, r.toRow_settled]
  | iteration r => simp only [StoreWrite.settled, r.toRow_settled]
  | partition r => simp only [StoreWrite.settled, r.toRow_settled]
  | time r => simp only [StoreWrite.settled, r.toRow_settled]
  | deleteRun => rfl

theorem MemoryStore.write_eq (m : MemoryStore) (w : StoreWrite) :
    m.write w = w.validate.map fun _ => m.put w := by
  unfold write
  cases w.validate <;> rfl

namespace ResultStore

/-- The answers to some calls, and the store after them. A call that is refused leaves the store as
it was. -/
def calls (s : ResultStore) : List StoreWrite → List (Except StorageError Unit) × ResultStore
  | [] => ([], s)
  | w :: ws =>
    match s.write w with
    | .ok s' => (.ok () :: (s'.calls ws).1, (s'.calls ws).2)
    | .error e => (.error e :: (s.calls ws).1, (s.calls ws).2)

/-- Stores that are written like stores in memory give the answers of the check of rows, and hold
what was accepted. -/
theorem calls_eq (kind : MemoryStore → ResultStore) {ws : List StoreWrite}
    (hwrite : ∀ m, ∀ w ∈ ws, (kind m).write w = w.validate.map fun _ => kind (m.put w))
    (m : MemoryStore) :
    (kind m).calls ws = (ws.map (·.validate), kind (m.putAll (ws.filter (·.isAccepted)))) := by
  induction ws generalizing m with
  | nil => rfl
  | cons w ws ih =>
    have hrest := ih fun m w hw => hwrite m w (List.mem_cons_of_mem _ hw)
    have hfirst := hwrite m w List.mem_cons_self
    unfold calls
    rw [hfirst]
    cases hvalid : w.validate with
    | ok =>
      have haccepted : w.isAccepted = true := by
        unfold StoreWrite.isAccepted
        rw [hvalid]
        rfl
      show (Except.ok () :: ((kind (m.put w)).calls ws).1, ((kind (m.put w)).calls ws).2) = _
      rw [hrest, List.map_cons, hvalid, List.filter_cons_of_pos haccepted, MemoryStore.putAll_cons]
    | error e =>
      have haccepted : ¬w.isAccepted = true := by
        unfold StoreWrite.isAccepted
        rw [hvalid]
        exact Bool.false_ne_true
      show (Except.error e :: ((kind m).calls ws).1, ((kind m).calls ws).2) = _
      rw [hrest, List.map_cons, hvalid, List.filter_cons_of_neg haccepted]

theorem calls_memory (m : MemoryStore) (ws : List StoreWrite) :
    (ResultStore.memory m).calls ws =
      (ws.map (·.validate), .memory (m.putAll (ws.filter (·.isAccepted)))) := by
  refine calls_eq .memory ?_ m
  intro m w _
  show (m.write w).map ResultStore.memory = _
  rw [m.write_eq]
  cases w.validate <;> rfl

theorem calls_relational (m : MemoryStore) {ws : List StoreWrite} (h : ∀ w ∈ ws, w.IsFinite) :
    (ResultStore.relational (.ofMemory m)).calls ws =
      (ws.map (·.validate), .relational (.ofMemory (m.putAll (ws.filter (·.isAccepted))))) := by
  refine calls_eq (fun m => .relational (.ofMemory m)) ?_ m
  intro m w hw
  have htimed : ∀ r, w = .time r → r.runtime.isNaN = false := by
    rintro r rfl
    exact Binary64.isNaN_eq_false_of_isFinite (h _ hw r.runtime rfl)
  show ((RelationalStore.ofMemory m).write w).map ResultStore.relational = _
  rw [RelationalStore.write_ofMemory htimed, m.write_eq]
  cases w.validate <;> rfl

theorem calls_settled (t : RelationalStore) (ws : List StoreWrite) :
    (ResultStore.relational t).calls (ws.map (·.settled)) =
      (ResultStore.relational t).calls ws := by
  induction ws generalizing t with
  | nil => rfl
  | cons w ws ih =>
    have hfirst : (ResultStore.relational t).write w.settled =
        (ResultStore.relational t).write w := by
      show (t.write w.settled).map ResultStore.relational = _
      rw [t.write_settled]
      rfl
    have hother : ∀ s', (ResultStore.relational t).write w = .ok s' →
        s'.calls (ws.map (·.settled)) = s'.calls ws := by
      intro s' hs'
      obtain ⟨t', -, rfl⟩ := exists_of_map_eq_ok hs'
      exact ih t'
    rw [List.map_cons, calls, calls, hfirst]
    cases hwritten : (ResultStore.relational t).write w with
    | ok s' =>
      show (Except.ok () :: (s'.calls (ws.map (·.settled))).1, _) = _
      rw [hother s' hwritten]
    | error e =>
      show (Except.error e :: ((ResultStore.relational t).calls (ws.map (·.settled))).1, _) = _
      rw [ih]

/-! ## What is read -/

/-- Everything that is read about a run from two stores is the same. -/
structure SameAbout (s s' : ResultStore) (benchmark tool : String) : Prop where
  run : s'.getRun benchmark tool = s.getRun benchmark tool
  iteration : ∀ i, s'.getIteration benchmark tool i = s.getIteration benchmark tool i
  iterations : s'.listIterations benchmark tool = s.listIterations benchmark tool
  partitions : ∀ i, s'.listPartitions benchmark tool i = s.listPartitions benchmark tool i
  times : s'.listTimes benchmark tool = s.listTimes benchmark tool

/-- What is read from a store are the rows that some calls have left, each once, and in ascending
order. -/
structure Tells (s : ResultStore) (ws : List StoreWrite) : Prop where
  run : ∀ benchmark tool, ∃ found, s.getRun benchmark tool = .ok found ∧
    ∀ r, found = some r ↔ (StoreWrite.run r).IsLastIn ws ∧ r.key = (benchmark, tool)
  iteration : ∀ benchmark tool i, ∃ found, s.getIteration benchmark tool i = .ok found ∧
    ∀ r, found = some r ↔ (StoreWrite.iteration r).IsLastIn ws ∧ r.key = (benchmark, tool, i)
  iterations : ∀ benchmark tool, ∃ listed, s.listIterations benchmark tool = .ok listed ∧
    (listed.map (·.iteration)).Pairwise (· < ·) ∧
    ∀ r, r ∈ listed ↔ (StoreWrite.iteration r).IsLastIn ws ∧ r.owner = (benchmark, tool)
  partitions : ∀ benchmark tool i, ∃ listed, s.listPartitions benchmark tool i = .ok listed ∧
    (listed.map (·.partition)).Pairwise (· < ·) ∧
    ∀ r, r ∈ listed ↔ (StoreWrite.partition r).IsLastIn ws ∧
      (r.benchmark, r.tool, r.iteration) = (benchmark, tool, i)
  times : ∀ benchmark tool, ∃ listed, s.listTimes benchmark tool = .ok listed ∧
    (listed.map (·.step)).Pairwise (· ≤ ·) ∧ (listed.map TimeRecord.key).Nodup ∧
    ∀ r, r ∈ listed ↔ (StoreWrite.time r).IsLastIn ws ∧ r.owner = (benchmark, tool)

variable {s s' : ResultStore} {ws : List StoreWrite}

theorem Tells.of_sameAbout (h : s.Tells ws)
    (same : ∀ benchmark tool, s.SameAbout s' benchmark tool) : s'.Tells ws where
  run benchmark tool := by
    rw [(same benchmark tool).run]
    exact h.run benchmark tool
  iteration benchmark tool i := by
    rw [(same benchmark tool).iteration]
    exact h.iteration benchmark tool i
  iterations benchmark tool := by
    rw [(same benchmark tool).iterations]
    exact h.iterations benchmark tool
  partitions benchmark tool i := by
    rw [(same benchmark tool).partitions]
    exact h.partitions benchmark tool i
  times benchmark tool := by
    rw [(same benchmark tool).times]
    exact h.times benchmark tool

/-- The rows of a store in memory are those that the calls have left. -/
theorem tells_memory (ws : List StoreWrite) :
    (ResultStore.memory (MemoryStore.empty.putAll (ws.filter (·.isAccepted)))).Tells ws := by
  have hkeyed := MemoryStore.isKeyed_empty.putAll (ws.filter (·.isAccepted))
  have hlast (w : StoreWrite) :
      (MemoryStore.empty.putAll (ws.filter (·.isAccepted))).Has w ↔ w.IsLastIn ws :=
    MemoryStore.has_putAll
  refine ⟨?_, ?_, ?_, ?_, ?_⟩
  · intro benchmark tool
    refine ⟨_, rfl, fun r => ?_⟩
    rw [← hlast, MemoryStore.getRun_eq_some hkeyed]
    rfl
  · intro benchmark tool i
    refine ⟨_, rfl, fun r => ?_⟩
    rw [← hlast, MemoryStore.getIteration_eq_some hkeyed]
    rfl
  · intro benchmark tool
    refine ⟨_, rfl, MemoryStore.ascending_listIterations hkeyed, fun r => ?_⟩
    rw [← hlast, MemoryStore.mem_listIterations]
    rfl
  · intro benchmark tool i
    refine ⟨_, rfl, MemoryStore.ascending_listPartitions hkeyed, fun r => ?_⟩
    rw [← hlast, MemoryStore.mem_listPartitions]
    rfl
  · intro benchmark tool
    refine ⟨_, rfl, MemoryStore.pairwise_listTimes, MemoryStore.nodup_listTimes hkeyed, fun r => ?_⟩
    rw [← hlast, MemoryStore.mem_listTimes]
    rfl

theorem map_settled_eq_self {α : Type} {settled : α → α} {rows : List α}
    (h : ∀ r ∈ rows, settled r = r) : rows.map settled = rows :=
  (List.map_congr_left h).trans (List.map_id rows)

/-- A relational store whose rows are kept as they are is read like the store in memory. -/
theorem sameAbout_ofMemory {m : MemoryStore} (hkept : ∀ w, m.Has w → w.IsKept)
    (htimed : ∀ r ∈ m.times, r.runtime.isNaN = false) (benchmark tool : String) :
    (ResultStore.memory m).SameAbout (.relational (.ofMemory m)) benchmark tool where
  run := by
    have hfound : ∀ r ∈ m.getRun benchmark tool, r.settled = r := by
      intro r hr
      exact RunRecord.settled_eq_self (hkept (.run r) (List.mem_of_find?_eq_some hr))
    show (RelationalStore.ofMemory m).getRun benchmark tool = .ok (m.getRun benchmark tool)
    rw [RelationalStore.getRun_ofMemory]
    cases hr : m.getRun benchmark tool with
    | none => rfl
    | some r => rw [Option.map_some, hfound r hr]
  iteration i := by
    have hfound : ∀ r ∈ m.getIteration benchmark tool i, r.settled = r := by
      intro r hr
      exact IterationRecord.settled_eq_self (hkept (.iteration r) (List.mem_of_find?_eq_some hr))
    show (RelationalStore.ofMemory m).getIteration benchmark tool i =
      .ok (m.getIteration benchmark tool i)
    rw [RelationalStore.getIteration_ofMemory]
    cases hr : m.getIteration benchmark tool i with
    | none => rfl
    | some r => rw [Option.map_some, hfound r hr]
  iterations := by
    show (RelationalStore.ofMemory m).listIterations benchmark tool =
      .ok (m.listIterations benchmark tool)
    rw [RelationalStore.listIterations_ofMemory, map_settled_eq_self]
    intro r hr
    exact IterationRecord.settled_eq_self
      (hkept (.iteration r) (MemoryStore.mem_listIterations.mp hr).1)
  partitions i := by
    show (RelationalStore.ofMemory m).listPartitions benchmark tool i =
      .ok (m.listPartitions benchmark tool i)
    rw [RelationalStore.listPartitions_ofMemory, map_settled_eq_self]
    intro r hr
    exact PartitionRecord.settled_eq_self
      (hkept (.partition r) (MemoryStore.mem_listPartitions.mp hr).1)
  times := by
    show (RelationalStore.ofMemory m).listTimes benchmark tool = .ok (m.listTimes benchmark tool)
    rw [RelationalStore.listTimes_ofMemory htimed, map_settled_eq_self]
    intro r hr
    exact TimeRecord.settled_eq_self
      (hkept (.time r) (MemoryStore.mem_listTimes.mp hr).1 r.runtime rfl)

/-- Stores of one kind that hold the same about a run are read alike. -/
theorem sameAbout_memory {m m' : MemoryStore} {benchmark tool : String}
    (h : m'.under benchmark tool = m.under benchmark tool) :
    (ResultStore.memory m).SameAbout (.memory m') benchmark tool where
  run := by
    show Except.ok (m'.getRun benchmark tool) = .ok (m.getRun benchmark tool)
    rw [← m'.getRun_under, h, m.getRun_under]
  iteration i := by
    show Except.ok (m'.getIteration benchmark tool i) = .ok (m.getIteration benchmark tool i)
    rw [← m'.getIteration_under, h, m.getIteration_under]
  iterations := by
    show Except.ok (m'.listIterations benchmark tool) = .ok (m.listIterations benchmark tool)
    rw [← m'.listIterations_under, h, m.listIterations_under]
  partitions i := by
    show Except.ok (m'.listPartitions benchmark tool i) = .ok (m.listPartitions benchmark tool i)
    rw [← m'.listPartitions_under, h, m.listPartitions_under]
  times := by
    show Except.ok (m'.listTimes benchmark tool) = .ok (m.listTimes benchmark tool)
    rw [← m'.listTimes_under, h, m.listTimes_under]

theorem sameAbout_relational {m m' : MemoryStore} {benchmark tool : String}
    (htimed : ∀ r ∈ m.times, r.runtime.isNaN = false)
    (htimed' : ∀ r ∈ m'.times, r.runtime.isNaN = false)
    (h : m'.under benchmark tool = m.under benchmark tool) :
    (ResultStore.relational (.ofMemory m)).SameAbout (.relational (.ofMemory m')) benchmark
      tool where
  run := by
    show (RelationalStore.ofMemory m').getRun benchmark tool =
      (RelationalStore.ofMemory m).getRun benchmark tool
    rw [RelationalStore.getRun_ofMemory, RelationalStore.getRun_ofMemory, ← m'.getRun_under, h,
      m.getRun_under]
  iteration i := by
    show (RelationalStore.ofMemory m').getIteration benchmark tool i =
      (RelationalStore.ofMemory m).getIteration benchmark tool i
    rw [RelationalStore.getIteration_ofMemory, RelationalStore.getIteration_ofMemory,
      ← m'.getIteration_under, h, m.getIteration_under]
  iterations := by
    show (RelationalStore.ofMemory m').listIterations benchmark tool =
      (RelationalStore.ofMemory m).listIterations benchmark tool
    rw [RelationalStore.listIterations_ofMemory, RelationalStore.listIterations_ofMemory,
      ← m'.listIterations_under, h, m.listIterations_under]
  partitions i := by
    show (RelationalStore.ofMemory m').listPartitions benchmark tool i =
      (RelationalStore.ofMemory m).listPartitions benchmark tool i
    rw [RelationalStore.listPartitions_ofMemory, RelationalStore.listPartitions_ofMemory,
      ← m'.listPartitions_under, h, m.listPartitions_under]
  times := by
    show (RelationalStore.ofMemory m').listTimes benchmark tool =
      (RelationalStore.ofMemory m).listTimes benchmark tool
    rw [RelationalStore.listTimes_ofMemory htimed', RelationalStore.listTimes_ofMemory htimed,
      ← m'.listTimes_under, h, m.listTimes_under]

/-- A deletion removes everything about one run, and nothing else. -/
structure DeletesOnly (s empty : ResultStore) (benchmark tool : String) : Prop where
  own : empty.SameAbout (s.calls [.deleteRun benchmark tool]).2 benchmark tool
  others : ∀ benchmark' tool', (benchmark', tool') ≠ (benchmark, tool) →
    s.SameAbout (s.calls [.deleteRun benchmark tool]).2 benchmark' tool'

theorem deletesOnly_memory (m : MemoryStore) (benchmark tool : String) :
    (ResultStore.memory m).DeletesOnly (.memory .empty) benchmark tool where
  own := by
    refine sameAbout_memory ?_
    show (m.put (.deleteRun benchmark tool)).under benchmark tool = .empty
    rw [MemoryStore.under_put_deleteRun, if_pos rfl]
  others benchmark' tool' hne := by
    refine sameAbout_memory ?_
    show (m.put (.deleteRun benchmark tool)).under benchmark' tool' = _
    rw [MemoryStore.under_put_deleteRun, if_neg hne]

theorem deletesOnly_relational {m : MemoryStore}
    (htimed : ∀ r ∈ m.times, r.runtime.isNaN = false) (benchmark tool : String) :
    (ResultStore.relational (.ofMemory m)).DeletesOnly (.relational .empty) benchmark tool := by
  have hstore : ((ResultStore.relational (.ofMemory m)).calls [.deleteRun benchmark tool]).2 =
      .relational (.ofMemory (m.put (.deleteRun benchmark tool))) := by
    rw [calls_relational m (List.forall_mem_singleton.mpr fun _ h => by cases h)]
    rfl
  have hput : ∀ r ∈ (m.put (.deleteRun benchmark tool)).times, r.runtime.isNaN = false :=
    isNaN_eq_false_of_mem_put htimed fun _ h => by cases h
  constructor
  · rw [hstore, ← RelationalStore.ofMemory_empty]
    refine sameAbout_relational (fun _ h => by cases h) hput ?_
    rw [MemoryStore.under_put_deleteRun, if_pos rfl]
    rfl
  · intro benchmark' tool' hne
    rw [hstore]
    refine sameAbout_relational htimed hput ?_
    rw [MemoryStore.under_put_deleteRun, if_neg hne]

/-- An empty store of each kind was given the same calls. -/
structure Interchangeable (ws : List StoreWrite) : Prop where
  /-- Both accept and refuse the same calls, and name the same reasons. -/
  answers : ((ResultStore.memory .empty).calls ws).1 = ((ResultStore.relational .empty).calls ws).1
  /-- A call that is refused changes nothing: it might as well not have been made. -/
  refusals : ∀ empty ∈ [ResultStore.memory .empty, .relational .empty],
    (empty.calls (ws.filter (·.isAccepted))).2 = (empty.calls ws).2
  /-- What is read is the same, if the database keeps the numbers as they are. -/
  same : (∀ w ∈ ws, w.IsKept) → ∀ benchmark tool,
    ((ResultStore.memory .empty).calls ws).2.SameAbout ((ResultStore.relational .empty).calls ws).2
      benchmark tool
  /-- What is read is the same in any case, but for the signs of zeros. -/
  settled : ∀ benchmark tool,
    ((ResultStore.memory .empty).calls (ws.map (·.settled))).2.SameAbout
      ((ResultStore.relational .empty).calls ws).2 benchmark tool
  /-- Each row that is read is the last one for its key. -/
  memory : ((ResultStore.memory .empty).calls ws).2.Tells ws
  relational : ((ResultStore.relational .empty).calls ws).2.Tells (ws.map (·.settled))
  /-- A run can be deleted without touching others. -/
  deletions : ∀ empty ∈ [ResultStore.memory .empty, .relational .empty], ∀ benchmark tool,
    (empty.calls ws).2.DeletesOnly empty benchmark tool

/-- A store is left with times that are numbers. -/
theorem isNaN_eq_false_of_mem_putAll (h : ∀ w ∈ ws, w.IsFinite) :
    ∀ r ∈ (MemoryStore.empty.putAll (ws.filter (·.isAccepted))).times,
      r.runtime.isNaN = false := by
  intro r hr
  have hlast : (StoreWrite.time r).IsLastIn ws := MemoryStore.has_putAll.mp hr
  exact Binary64.isNaN_eq_false_of_isFinite (h _ hlast.mem r.runtime rfl)

/-- Stores of both kinds are read alike after calls with numbers that a database keeps. -/
theorem sameAbout_calls (hfinite : ∀ w ∈ ws, w.IsFinite) (hkept : ∀ w ∈ ws, w.IsKept)
    (benchmark tool : String) :
    ((ResultStore.memory .empty).calls ws).2.SameAbout
      ((ResultStore.relational .empty).calls ws).2 benchmark tool := by
  have hrows (w : StoreWrite)
      (hw : (MemoryStore.empty.putAll (ws.filter (·.isAccepted))).Has w) : w.IsKept :=
    hkept w (MemoryStore.has_putAll.mp hw).mem
  rw [calls_memory, ← RelationalStore.ofMemory_empty, calls_relational _ hfinite]
  exact sameAbout_ofMemory hrows (isNaN_eq_false_of_mem_putAll hfinite) benchmark tool

end ResultStore

/-- Whatever calls with finite times are made, a store in memory and a relational one give the same
answers and are read alike, and what is read is what the calls have left. -/
theorem stores_interchangeable {ws : List StoreWrite} (h : ∀ w ∈ ws, w.IsFinite) :
    ResultStore.Interchangeable ws := by
  have hempty : RelationalStore.ofMemory .empty = .empty := RelationalStore.ofMemory_empty
  have haccepted : ∀ w ∈ ws.filter (·.isAccepted), w.IsFinite :=
    fun w hw => h w (List.mem_of_mem_filter hw)
  have hsettled : ∀ w ∈ ws.map (·.settled), w.IsFinite :=
    List.forall_mem_map.mpr fun w hw => StoreWrite.isFinite_settled (h w hw)
  have hkept : ∀ w ∈ ws.map (·.settled), w.IsKept :=
    List.forall_mem_map.mpr fun w hw => StoreWrite.isKept_settled (h w hw)
  have hfilter : (ws.filter (·.isAccepted)).filter (·.isAccepted) = ws.filter (·.isAccepted) := by
    rw [List.filter_filter]
    exact List.filter_congr fun w _ => Bool.and_self _
  have hsame (benchmark tool : String) :=
    ResultStore.sameAbout_calls hsettled hkept benchmark tool
  rw [ResultStore.calls_settled] at hsame
  have htells : ((ResultStore.memory .empty).calls (ws.map (·.settled))).2.Tells
      (ws.map (·.settled)) := by
    rw [ResultStore.calls_memory]
    exact ResultStore.tells_memory _
  constructor
  · rw [ResultStore.calls_memory, ← hempty, ResultStore.calls_relational _ h]
  · intro empty hmem
    rcases List.mem_pair.mp hmem with rfl | rfl
    · rw [ResultStore.calls_memory, ResultStore.calls_memory, hfilter]
    · rw [← hempty, ResultStore.calls_relational _ haccepted, ResultStore.calls_relational _ h,
        hfilter]
  · intro hkept
    exact ResultStore.sameAbout_calls h hkept
  · exact hsame
  · rw [ResultStore.calls_memory]
    exact ResultStore.tells_memory ws
  · exact htells.of_sameAbout hsame
  · intro empty hmem benchmark tool
    rcases List.mem_pair.mp hmem with rfl | rfl
    · rw [ResultStore.calls_memory]
      exact ResultStore.deletesOnly_memory _ benchmark tool
    · rw [← hempty, ResultStore.calls_relational _ h, hempty]
      exact ResultStore.deletesOnly_relational (ResultStore.isNaN_eq_false_of_mem_putAll h)
        benchmark tool

/-- A partition that is refused, since it does not say what went wrong, and one that is replaced
after its run was deleted. -/
theorem stores_interchangeable_replaced :
    let failed : PartitionRecord :=
      { benchmark := "f", tool := "CEGAR", iteration := 1, partition := 2, result := some .error }
    let timed : PartitionRecord :=
      { benchmark := "f", tool := "CEGAR", iteration := 1, partition := 2, result := some .timeout
        runtime := some (.neg .zero) }
    let calls : List StoreWrite := [.partition (.indexOnly "f" "CEGAR" 1 1),
      .deleteRun "f" "CEGAR", .partition (.indexOnly "f" "CEGAR" 1 2), .partition failed,
      .partition timed]
    (∀ w ∈ calls, w.IsFinite) ∧ calls.map (·.isAccepted) = [true, true, true, false, true] ∧
      ResultStore.Interchangeable calls :=
  ⟨by decide, by decide, stores_interchangeable (by decide)⟩

end Regression
