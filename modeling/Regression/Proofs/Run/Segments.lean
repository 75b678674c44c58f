import Mathlib.Data.List.Chain
import Regression.Proofs.Run.Whole

/-!
# Reading a history

The history of a run is cut into pieces, one for each iteration, which begin where the versions are
prepared. A piece tells which partitions were delivered, whether preparing or delivering failed,
whether a batch was aborted, and whether the watchdog was seen to have expired.

Most events tell nothing of this kind; they are quiet.
-/

namespace Regression

/-! ## Events -/

namespace Event

def isPrepared : Event → Bool
  | .prepared .. => true
  | _ => false

/-- The partition that the source delivered. -/
def delivered? : Event → Option Partition
  | .pulled (.done (.ok p?)) => p?
  | _ => none

/-- Preparing, exploring, or storing the row of a partition failed. -/
def isFailure : Event → Bool
  | .prepared _ (.done (.error _)) => true
  | .started _ (.done (.error _)) => true
  | .pulled (.done (.error _)) => true
  | .wrote (.partition _) (.error _) => true
  | _ => false

/-- The watchdog was seen to have expired, while partitions were explored or checked. -/
def isExpiry : Event → Bool
  | .prepared _ .expired => true
  | .started _ .expired => true
  | .pulled .expired => true
  | .polled expired => expired
  | .closed .expired => true
  | _ => false

/-- A batch was aborted. -/
def isAbort : Event → Bool
  | .closed (.done (.error _)) => true
  | _ => false

/-- A batch was checked to its end. -/
def isFinish : Event → Bool
  | .closed (.done (.ok _)) => true
  | _ => false

/-- Part of exploring or checking, once the versions were prepared. -/
def isWork : Event → Bool
  | .started .. | .pulled .. | .polled .. => true
  | .cancelled _ | .asked .. | .recorded .. | .closed _ => true
  | .wrote .. | .appended .. => true
  | _ => false

/-- Part of checking, unless something was not stored. -/
def isChecking : Event → Bool
  | .polled .. | .cancelled _ | .asked .. | .recorded .. | .closed _ => true
  | .wrote _ (.ok _) => true
  | _ => false

/-- Keeps the watchdog from being noticed, and stores no partition: what comes before the first
iteration, between two of them and behind the last one. -/
def isAside : Event → Bool
  | .looked .. | .summarized _ | .expanded .. | .reset .. | .appended .. => true
  | .wrote (.partition _) _ => false
  | .wrote .. => true
  | _ => false

/-- The watchdog was looked at, before a batch or at its end. -/
def isPolled : Event → Bool
  | .polled _ | .closed _ => true
  | _ => false

/-- The row of a partition was not stored. -/
def refused? : Event → Option UInt32
  | .wrote (.partition r) (.error _) => some r.partition
  | _ => none

/-- Tells nothing about iterations and deliveries. -/
def isQuiet : Event → Bool
  | .prepared .. | .started .. | .pulled .. => false
  | .wrote (.partition _) (.error _) => false
  | _ => true

theorem of_isAside {e : Event} (h : e.isAside) :
    e.isQuiet ∧ e.isExpiry = false ∧ e.isPolled = false := by
  cases e with
  | wrote w result => cases w <;> first | exact ⟨rfl, rfl, rfl⟩ | cases h
  | _ => first | exact ⟨rfl, rfl, rfl⟩ | cases h

theorem of_not_isPolled {e : Event} (h : e.isPolled = false) :
    e.isFinish = false ∧ e.isAbort = false := by
  cases e <;> first | exact ⟨rfl, rfl⟩ | cases h

theorem refused?_of_isQuiet {e : Event} (h : e.isQuiet) : e.refused? = none := by
  cases e with
  | wrote w result => cases w <;> cases result <;> first | rfl | cases h
  | _ => rfl

theorem of_isQuiet {e : Event} (h : e.isQuiet) :
    e.isPrepared = false ∧ e.delivered? = none ∧ e.isFailure = false := by
  cases e with
  | prepared | started | pulled => cases h
  | wrote w result =>
    refine ⟨rfl, rfl, ?_⟩
    cases w <;> cases result <;> first | rfl | cases h
  | _ => exact ⟨rfl, rfl, rfl⟩

theorem not_isPrepared_of_isWork {e : Event} (h : e.isWork) : e.isPrepared = false := by
  cases e <;> first | rfl | cases h

theorem isWork_of_isChecking {e : Event} (h : e.isChecking) : e.isWork := by
  cases e <;> first | rfl | cases h

theorem isQuiet_of_isChecking {e : Event} (h : e.isChecking) : e.isQuiet := by
  cases e with
  | wrote w result =>
    cases result with
    | error => cases h
    | ok => cases w <;> rfl
  | _ => first | rfl | cases h

/-- At the desk nothing but checking goes on; the watchdog is not noticed, nothing is written. -/
theorem of_isFromDesk {e : Event} (h : e.isFromDesk) :
    e.isChecking ∧ e.isExpiry = false ∧ e.isPolled = false ∧ e.written? = none := by
  cases e <;> first | exact ⟨rfl, rfl, rfl, rfl⟩ | cases h

end Event

namespace History

/-! ## Pieces -/

/-- The partitions that the source delivered. -/
def delivered (h : History) : List Partition := h.filterMap Event.delivered?

/-- The indices grow from partition to partition. -/
def inOrder (h : History) : Bool := decide ((h.delivered.map (·.index)).IsChain (· < ·))

/-- Preparing or delivering failed, which includes the delivery of an index that does not follow. -/
def failed (h : History) : Bool := h.any Event.isFailure || !h.inOrder

/-- The watchdog was seen to have expired, while partitions were explored or checked. -/
def expired (h : History) : Bool := h.any Event.isExpiry

/-- A batch of partitions was aborted. -/
def aborted (h : History) : Bool := h.any Event.isAbort

def Quiet (h : History) : Prop := ∀ e ∈ h, e.isQuiet

theorem mem_delivered {h : History} {p : Partition} :
    p ∈ h.delivered ↔ .pulled (.done (.ok (some p))) ∈ h := by
  rw [delivered, List.mem_filterMap]
  constructor
  · rintro ⟨e, he, hp⟩
    cases e with
    | pulled result =>
      rcases result with (_ | p?) | _
      · cases hp
      · cases hp
        exact he
      · cases hp
    | _ => cases hp
  · exact fun he => ⟨_, he, rfl⟩

theorem delivered_append (h h' : History) : (h ++ h').delivered = h.delivered ++ h'.delivered :=
  List.filterMap_append

theorem expired_cons (e : Event) (h : History) :
    History.expired (e :: h) = (e.isExpiry || h.expired) :=
  rfl

theorem expired_append (h h' : History) : (h ++ h').expired = (h.expired || h'.expired) :=
  List.any_append

theorem aborted_append (h h' : History) : (h ++ h').aborted = (h.aborted || h'.aborted) :=
  List.any_append

theorem Quiet.delivered_eq {h : History} (hq : h.Quiet) : h.delivered = [] := by
  rw [delivered, List.filterMap_eq_nil_iff]
  exact fun e he => (Event.of_isQuiet (hq e he)).2.1

theorem Quiet.any_isFailure {h : History} (hq : h.Quiet) : h.any Event.isFailure = false := by
  rw [List.any_eq_false]
  intro e he
  simp [(Event.of_isQuiet (hq e he)).2.2]

theorem delivered_append_quiet {h h' : History} (hq : h'.Quiet) :
    (h ++ h').delivered = h.delivered := by
  rw [delivered_append, hq.delivered_eq, List.append_nil]

/-- Quiet events say nothing about failures. -/
theorem failed_append_quiet {h h' : History} (hq : h'.Quiet) : (h ++ h').failed = h.failed := by
  rw [failed, failed, inOrder, inOrder, delivered_append_quiet hq, List.any_append,
    hq.any_isFailure, Bool.or_false]

/-! ## Accepted partitions -/

/-- Partitions up to the first one whose index does not follow the last one. -/
def following : Option UInt32 → List Partition → List Partition
  | _, [] => []
  | last, p :: rest =>
    if Run.follows p.index last then p :: following (some p.index) rest else []

/-- The indices of partitions whose rows were not stored. -/
def refused (h : History) : List UInt32 := h.filterMap Event.refused?

/-- The partitions that were accepted: they were delivered in order, and the store took them. -/
def accepted (h : History) : List Partition :=
  (following none h.delivered).filter (·.index ∉ h.refused)

theorem following_ascending (last : Option UInt32) (partitions : List Partition) :
    (last.toList ++ (following last partitions).map (·.index)).Pairwise (· < ·) := by
  induction partitions generalizing last with
  | nil => cases last <;> simp [following]
  | cons p rest ih =>
    rw [following]
    split
    · next order =>
      have hrest : (p.index :: (following (some p.index) rest).map (·.index)).Pairwise (· < ·) :=
        ih (some p.index)
      cases last with
      | none => exact hrest
      | some last =>
        have hlast : last < p.index := by simpa [Run.follows] using order
        have hall : ∀ i ∈ (following (some p.index) rest).map (·.index), last < i :=
          fun i hi => UInt32.lt_trans hlast ((List.pairwise_cons.mp hrest).1 i hi)
        exact List.pairwise_cons.mpr ⟨List.forall_mem_cons.mpr ⟨hlast, hall⟩, hrest⟩
    · cases last <;> simp

/-- The indices of accepted partitions grow. -/
theorem accepted_ascending (h : History) : (h.accepted.map (·.index)).Pairwise (· < ·) :=
  (following_ascending none h.delivered).sublist (List.filter_sublist.map _)

/-- Of partitions in order the first one follows the last index, and the rest follows it. -/
theorem follows_of_isChain {last : Option UInt32} {p : Partition} {rest : List Partition}
    (order : (last.toList ++ (p :: rest).map (·.index)).IsChain (· < ·)) :
    Run.follows p.index last = true ∧
      ((some p.index).toList ++ rest.map (·.index)).IsChain (· < ·) := by
  cases last with
  | none => exact ⟨rfl, order⟩
  | some last =>
    obtain ⟨hlast, hrest⟩ := List.isChain_cons_cons.mp order
    exact ⟨by simpa [Run.follows] using hlast, hrest⟩

theorem following_eq_self {last : Option UInt32} {partitions : List Partition}
    (order : (last.toList ++ partitions.map (·.index)).IsChain (· < ·)) :
    following last partitions = partitions := by
  induction partitions generalizing last with
  | nil => rfl
  | cons p rest ih =>
    obtain ⟨hfollows, hrest⟩ := follows_of_isChain order
    rw [following, if_pos hfollows, ih hrest]

/-- All partitions are accepted if they are delivered in order and the store refuses none. -/
theorem accepted_eq_delivered {h : History} (order : h.inOrder) (hrefused : h.refused = []) :
    h.accepted = h.delivered := by
  have hfollowing : following none h.delivered = h.delivered :=
    following_eq_self (of_decide_eq_true order)
  rw [accepted, hfollowing, hrefused]
  simp

/-- An iteration without failures accepts all partitions. -/
theorem accepted_of_not_failed {h : History} (hf : h.failed = false) :
    h.accepted = h.delivered := by
  rw [failed, Bool.or_eq_false_iff, Bool.not_eq_false'] at hf
  refine accepted_eq_delivered hf.2 ?_
  rw [refused, List.filterMap_eq_nil_iff]
  intro e he
  have hnone : e.isFailure = false := by simpa using List.any_eq_false.mp hf.1 e he
  cases e with
  | wrote w result => cases w <;> cases result <;> first | rfl | cases hnone
  | _ => rfl

theorem Quiet.refused_eq {h : History} (hq : h.Quiet) : h.refused = [] := by
  rw [refused, List.filterMap_eq_nil_iff]
  exact fun e he => Event.refused?_of_isQuiet (hq e he)

theorem accepted_append_quiet {h h' : History} (hq : h'.Quiet) :
    (h ++ h').accepted = h.accepted := by
  have hrefused : (h ++ h').refused = h.refused := by
    rw [refused, List.filterMap_append, ← refused, ← refused, hq.refused_eq, List.append_nil]
  rw [accepted, accepted, delivered_append_quiet hq, hrefused]

/-! ## Batches -/

/-- The number of batches that were checked to their end. -/
def finishedBatches (h : History) : Nat := h.countP Event.isFinish

/-- The queries that were answered since the last look at the watchdog, when its expiry is seen or
the batch is aborted; `keys` are those before. -/
def cutOffFrom : List QueryKey → History → List QueryKey
  | _, [] => []
  | keys, .polled true :: _ => keys
  | _, .polled false :: es => cutOffFrom [] es
  | _, .closed (.done (.ok _)) :: es => cutOffFrom [] es
  | keys, .closed _ :: _ => keys
  | keys, e :: es => cutOffFrom (keys ++ e.recorded?.toList) es

/-- The queries that were answered in the batch that was given up. -/
def cutOff (h : History) : List QueryKey := cutOffFrom [] h

def Unpolled (h : History) : Prop := ∀ e ∈ h, e.isPolled = false

theorem Unpolled.finishedBatches_eq {h : History} (hu : h.Unpolled) : h.finishedBatches = 0 := by
  rw [finishedBatches, List.countP_eq_zero]
  intro e he
  simp [(Event.of_not_isPolled (hu e he)).1]

/-- No batch ends where the watchdog is not looked at. -/
theorem Unpolled.aborted_eq {h : History} (hu : h.Unpolled) : h.aborted = false := by
  rw [aborted, List.any_eq_false]
  intro e he
  simp [(Event.of_not_isPolled (hu e he)).2]

theorem finishedBatches_cons (e : Event) (h : History) :
    History.finishedBatches (e :: h) = h.finishedBatches + if e.isFinish then 1 else 0 :=
  List.countP_cons

theorem finishedBatches_append (h h' : History) :
    (h ++ h').finishedBatches = h.finishedBatches + h'.finishedBatches :=
  List.countP_append

theorem cutOffFrom_cons {e : Event} (he : e.isPolled = false) (keys : List QueryKey) (h : History) :
    cutOffFrom keys (e :: h) = cutOffFrom (keys ++ e.recorded?.toList) h := by
  cases e <;> first | rfl | cases he

theorem cutOffFrom_append {h : History} (hu : h.Unpolled) (keys : List QueryKey) (h' : History) :
    cutOffFrom keys (h ++ h') = cutOffFrom (keys ++ h.answered) h' := by
  induction h generalizing keys with
  | nil => rw [List.nil_append, answered, List.filterMap_nil, List.append_nil]
  | cons e es ih =>
    have he : e.isPolled = false := hu e List.mem_cons_self
    have hkeys : e.recorded?.toList ++ answered es = answered (e :: es) := by
      rw [answered, answered, List.filterMap_cons]
      cases e.recorded? <;> rfl
    rw [List.cons_append, cutOffFrom_cons he, ih fun e' he' => hu e' (List.mem_cons_of_mem _ he'),
      List.append_assoc, hkeys]

theorem Unpolled.cutOffFrom_eq {h : History} (hu : h.Unpolled) (keys : List QueryKey) :
    cutOffFrom keys h = [] := by
  have happend := cutOffFrom_append hu keys []
  rwa [List.append_nil] at happend

/-- Nothing is given up behind the last look at the watchdog. -/
theorem cutOffFrom_append_unpolled {h h' : History} (hu : h'.Unpolled) (keys : List QueryKey) :
    cutOffFrom keys (h ++ h') = cutOffFrom keys h := by
  induction h generalizing keys with
  | nil => exact hu.cutOffFrom_eq keys
  | cons e es ih =>
    cases hp : e.isPolled with
    | false => rw [List.cons_append, cutOffFrom_cons hp, cutOffFrom_cons hp, ih]
    | true =>
      cases e with
      | polled expired =>
        cases expired with
        | true => rfl
        | false => exact ih []
      | closed result =>
        cases result with
        | expired => rfl
        | done result =>
          cases result with
          | error => rfl
          | ok => exact ih []
      | _ => cases hp

/-! ## At the desk -/

def FromDesk (h : History) : Prop := ∀ e ∈ h, e.isFromDesk

namespace FromDesk

variable {h : History}

theorem isChecking (hd : h.FromDesk) : ∀ e ∈ h, e.isChecking :=
  fun e he => (Event.of_isFromDesk (hd e he)).1

theorem expired_eq (hd : h.FromDesk) : h.expired = false := by
  rw [expired, List.any_eq_false]
  intro e he
  simp [(Event.of_isFromDesk (hd e he)).2.1]

theorem unpolled (hd : h.FromDesk) : h.Unpolled :=
  fun e he => (Event.of_isFromDesk (hd e he)).2.2.1

theorem writes_eq (hd : h.FromDesk) : h.writes = [] := by
  rw [writes, List.filterMap_eq_nil_iff]
  exact fun e he => (Event.of_isFromDesk (hd e he)).2.2.2

end FromDesk

/-! ## Aside of the iterations -/

def Aside (h : History) : Prop := ∀ e ∈ h, e.isAside

namespace Aside

variable {h h' : History}

theorem append (ha : h.Aside) (ha' : h'.Aside) : (h ++ h').Aside :=
  List.forall_mem_append.mpr ⟨ha, ha'⟩

theorem quiet (ha : h.Aside) : h.Quiet := fun e he => (Event.of_isAside (ha e he)).1

theorem unpolled (ha : h.Aside) : h.Unpolled := fun e he => (Event.of_isAside (ha e he)).2.2

theorem expired_eq (ha : h.Aside) : h.expired = false := by
  rw [expired, List.any_eq_false]
  intro e he
  simp [(Event.of_isAside (ha e he)).2.1]

end Aside

/-! ## Iterations -/

/-- The events before the first iteration, and those of each iteration. -/
def cut : History → History × List History
  | [] => ([], [])
  | e :: es =>
    let (before, pieces) := cut es
    if e.isPrepared then ([], (e :: before) :: pieces) else (e :: before, pieces)

/-- The events of each iteration. -/
def iterations (h : History) : List History := h.cut.2

theorem cut_append {h h' : History} (hn : ∀ e ∈ h, e.isPrepared = false) :
    (h ++ h').cut = (h ++ h'.cut.1, h'.cut.2) := by
  induction h with
  | nil => rfl
  | cons e es ih =>
    have he : e.isPrepared = false := hn e List.mem_cons_self
    rw [List.cons_append, cut, ih fun e' he' => hn e' (List.mem_cons_of_mem _ he')]
    simp [he]

theorem cut_cons {e : Event} {h : History} (he : e.isPrepared = true) :
    cut (e :: h) = ([], (e :: h.cut.1) :: h.cut.2) := by
  simp [cut, he]

theorem cut_cons_of_not {e : Event} {h : History} (he : e.isPrepared = false) :
    cut (e :: h) = (e :: h.cut.1, h.cut.2) := by
  simp [cut, he]

theorem Quiet.not_isPrepared {h : History} (hq : h.Quiet) : ∀ e ∈ h, e.isPrepared = false :=
  fun e he => (Event.of_isQuiet (hq e he)).1

theorem Quiet.cut_eq {h : History} (hq : h.Quiet) : h.cut = (h, []) := by
  have hcut : cut (h ++ []) = (h ++ [], []) := cut_append hq.not_isPrepared
  simpa [cut] using hcut

end History

end Regression
