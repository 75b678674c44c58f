import Regression.Proofs.Number.Plain
import Regression.Store.Relational

/-!
# Columns of a database

A record is written to a row of values, and read from the columns that are selected. What is read is
the record, except that a database does not keep the sign of a zero (`RunRecord.settled` and the
like).

* `RunRecord.ofRow_toRow`, `IterationRecord.ofRow_toRow`, `PartitionRecord.ofRow_toRow`,
  `TimeRecord.ofRow_toRow`: every row can be read, and no column stands in another one's place.
-/

namespace Regression

/-! ## Numbers in a database -/

/-- What a database keeps of a number: nothing if it is not a number, and a zero without its
sign. -/
def Binary64.kept? (x : Binary64) : Option Binary64 :=
  if x.isNaN then none else if x.isZero then some (.ofNat 0) else some x

/-- The number is kept as it is. -/
def Binary64.IsKept (x : Binary64) : Prop := x.kept? = some x

instance (x : Binary64) : Decidable x.IsKept := inferInstanceAs (Decidable (_ = _))

theorem Binary64.exists_kept? {x : Binary64} (h : x.isNaN = false) : ∃ y, x.kept? = some y := by
  unfold kept?
  rw [if_neg (by simp [h])]
  split
  · exact ⟨_, rfl⟩
  · exact ⟨_, rfl⟩

/-- All numbers but NaN and a negative zero are kept as they are. -/
theorem Binary64.isKept_of_isZero_eq_false {x : Binary64} (hnumber : x.isNaN = false)
    (hzero : x.isZero = false) : x.IsKept := by
  show x.kept? = some x
  unfold kept?
  rw [if_neg (by simp [hnumber]), if_neg (by simp [hzero])]

/-- What is kept of a number is kept as it is. -/
theorem Binary64.isKept_of_kept? {x y : Binary64} (h : x.kept? = some y) : y.IsKept := by
  unfold kept? at h
  split at h
  · cases h
  · next hnan =>
    split at h
    · cases h
      show (ofNat 0).kept? = some (ofNat 0)
      decide
    · next hzero =>
      cases h
      exact isKept_of_isZero_eq_false (by simpa using hnan) (by simpa using hzero)

theorem Binary64.isFinite_of_kept? {x y : Binary64} (hfinite : x.isFinite)
    (h : x.kept? = some y) : y.isFinite := by
  unfold kept? at h
  split at h
  · cases h
  · split at h
    · cases h
      decide
    · cases h
      exact hfinite

/-! ## Records in a database -/

/-- The record as a database gives it back. -/
def RunRecord.settled (r : RunRecord) : RunRecord :=
  { r with runtime := r.runtime.bind Binary64.kept? }

def IterationRecord.settled (r : IterationRecord) : IterationRecord :=
  { r with runtime := r.runtime.bind Binary64.kept? }

def PartitionRecord.settled (r : PartitionRecord) : PartitionRecord :=
  { r with runtime := r.runtime.bind Binary64.kept? }

/-- A time that is not a number is never in a database. -/
def TimeRecord.settled (r : TimeRecord) : TimeRecord :=
  { r with runtime := r.runtime.kept?.getD r.runtime }

theorem bind_kept?_eq_self {x : Option Binary64} (h : ∀ y ∈ x, y.IsKept) :
    x.bind Binary64.kept? = x := by
  cases x with
  | none => rfl
  | some y => exact h y rfl

theorem RunRecord.settled_eq_self {r : RunRecord} (h : ∀ x ∈ r.runtime, x.IsKept) :
    r.settled = r := by
  unfold settled
  rw [bind_kept?_eq_self h]

theorem IterationRecord.settled_eq_self {r : IterationRecord} (h : ∀ x ∈ r.runtime, x.IsKept) :
    r.settled = r := by
  unfold settled
  rw [bind_kept?_eq_self h]

theorem PartitionRecord.settled_eq_self {r : PartitionRecord} (h : ∀ x ∈ r.runtime, x.IsKept) :
    r.settled = r := by
  unfold settled
  rw [bind_kept?_eq_self h]

theorem TimeRecord.settled_eq_self {r : TimeRecord} (h : r.runtime.IsKept) : r.settled = r := by
  have hruntime : r.runtime.kept? = some r.runtime := h
  unfold settled
  rw [hruntime]
  rfl

/-! ## Values of columns -/

section

variable {α : Type}

theorem Row.decode_eq_ok {row : Row} {i : Nat} {column : String} {value : Value}
    {read : Value → Option α} {a : α} (hcolumn : row[i]? = some (column, value))
    (hread : read value = some a) : row.decode i read = .ok a := by
  unfold decode
  rw [hcolumn]
  dsimp only
  rw [hread]

theorem Row.nullable_ofOption {read : Value → Option α} {encode : α → Value} (x : Option α)
    (hnull : ∀ a, encode a ≠ .null) (hread : ∀ a, read (encode a) = some a) :
    nullable read (.ofOption encode x) = some x := by
  cases x with
  | none => rfl
  | some a =>
    have hvalue : nullable read (encode a) = (read (encode a)).map some := by
      unfold nullable
      split
      · next heq => exact absurd heq (hnull a)
      · rfl
    show nullable read (encode a) = some (some a)
    rw [hvalue, hread a]
    rfl

@[simp] theorem Row.bool?_ofBool (b : Bool) : bool? (.ofBool b) = some b := by
  cases b <;> rfl

@[simp] theorem Row.uint32?_ofUInt32 (n : UInt32) : uint32? (.ofUInt32 n) = some n := by
  have hlt : n.toNat < 4294967296 := n.toNat_lt
  have hbounds : (0 ≤ (n.toNat : Int) && (n.toNat : Int) < UInt32.size) = true := by
    simp only [UInt32.size, Bool.and_eq_true, decide_eq_true_eq]
    omega
  show (if 0 ≤ (n.toNat : Int) && (n.toNat : Int) < UInt32.size then
    some (UInt32.ofNat n.toNat) else none) = some n
  rw [if_pos hbounds, UInt32.ofNat_toNat]

@[simp] theorem Row.nullable_bool? (x : Option Bool) :
    nullable bool? (.ofOption .ofBool x) = some x :=
  nullable_ofOption x (fun _ h => by cases h) bool?_ofBool

@[simp] theorem Row.nullable_uint32? (x : Option UInt32) :
    nullable uint32? (.ofOption .ofUInt32 x) = some x :=
  nullable_ofOption x (fun _ h => by cases h) uint32?_ofUInt32

@[simp] theorem Row.nullable_text? (x : Option String) :
    nullable text? (.ofOption .text x) = some x :=
  nullable_ofOption x (fun _ h => by cases h) fun _ => rfl

/-- A number is read as what the database keeps of it. -/
@[simp] theorem Row.nullable_real? (x : Option Binary64) :
    nullable real? (.ofOption .ofReal x) = some (x.bind Binary64.kept?) := by
  cases x with
  | none => rfl
  | some x =>
    show nullable real? (.ofReal x) = some x.kept?
    unfold Value.ofReal Binary64.kept?
    by_cases hnan : x.isNaN
    · rw [if_pos hnan, if_pos hnan]
      rfl
    · rw [if_neg hnan, if_neg hnan]
      by_cases hzero : x.isZero
      · rw [if_pos hzero, if_pos hzero]
        rfl
      · rw [if_neg hzero, if_neg hzero]
        rfl

theorem Row.real?_ofReal {x : Binary64} (h : x.isNaN = false) :
    real? (.ofReal x) = some (x.kept?.getD x) := by
  have hnan : ¬x.isNaN = true := by simp [h]
  unfold Value.ofReal Binary64.kept?
  rw [if_neg hnan, if_neg hnan]
  by_cases hzero : x.isZero
  · rw [if_pos hzero, if_pos hzero]
    rfl
  · rw [if_neg hzero, if_neg hzero]
    rfl

/-- Names of classifications and statuses are read back as what they name. -/
theorem Row.named_eq_ok {row : Row} {i : Nat} {column : String} {name : α → String}
    {parse : String → Except StorageError α} {x : Option α}
    (hcolumn : row[i]? = some (column, .ofOption (.text <| name ·) x))
    (hparse : ∀ a, parse (name a) = .ok a) : row.named i parse = .ok x := by
  have htext : row.decode i (nullable text?) = .ok (x.map name) := by
    refine decode_eq_ok hcolumn ?_
    cases x <;> rfl
  unfold named
  rw [htext]
  cases x with
  | none => rfl
  | some a =>
    dsimp only [Option.map_some, bind, Except.bind]
    rw [hparse a]
    rfl

end

theorem Classification.parse_name (c : Classification) : parse c.name = .ok c := by
  cases c <;> rfl

theorem Status.parse_name (s : Status) : parse s.name = .ok s := by
  cases s <;> rfl

/-! ## Rows of records -/

/-- What a database keeps of a number is kept as the same value. -/
theorem Value.ofReal_of_kept? {x y : Binary64} (h : x.kept? = some y) : ofReal y = ofReal x := by
  unfold Binary64.kept? at h
  by_cases hnan : x.isNaN
  · rw [if_pos hnan] at h
    cases h
  · rw [if_neg hnan] at h
    by_cases hzero : x.isZero
    · rw [if_pos hzero] at h
      injection h with h
      subst h
      have hzeros : ofReal (.ofNat 0) = .real (.ofNat 0) := by decide
      unfold ofReal at hzeros ⊢
      rw [hzeros, if_neg hnan, if_pos hzero]
    · rw [if_neg hzero] at h
      injection h with h
      rw [h]

theorem Value.ofOption_bind_kept? (x : Option Binary64) :
    ofOption ofReal (x.bind Binary64.kept?) = ofOption ofReal x := by
  cases x with
  | none => rfl
  | some x =>
    show ofOption ofReal x.kept? = ofReal x
    cases hkept : x.kept? with
    | none =>
      unfold Binary64.kept? at hkept
      by_cases hnan : x.isNaN
      · unfold ofReal
        rw [if_pos hnan]
        rfl
      · rw [if_neg hnan] at hkept
        split at hkept <;> cases hkept
    | some y => exact ofReal_of_kept? hkept

theorem RunRecord.toRow_settled (r : RunRecord) : r.settled.toRow = r.toRow := by
  simp only [toRow, settled, Value.ofOption_bind_kept?]

theorem IterationRecord.toRow_settled (r : IterationRecord) : r.settled.toRow = r.toRow := by
  simp only [toRow, settled, Value.ofOption_bind_kept?]

theorem PartitionRecord.toRow_settled (r : PartitionRecord) : r.settled.toRow = r.toRow := by
  have huif : r.settled.hasUif = r.hasUif := rfl
  simp only [toRow, huif]
  simp only [settled, Value.ofOption_bind_kept?]

theorem TimeRecord.toRow_settled (r : TimeRecord) : r.settled.toRow = r.toRow := by
  have hruntime : Value.ofReal (r.runtime.kept?.getD r.runtime) = .ofReal r.runtime := by
    cases hkept : r.runtime.kept? with
    | none => rfl
    | some y => exact Value.ofReal_of_kept? hkept
  simp only [toRow, settled, hruntime]

/-! ### Reading rows

The columns that are read stand in the order in which they are written. -/

theorem RunRecord.select_toRow (r : RunRecord) : r.toRow.select columns = r.toRow := rfl

theorem IterationRecord.select_toRow (r : IterationRecord) : r.toRow.select columns = r.toRow := rfl

/-- What a row tells besides the record is not read. -/
theorem PartitionRecord.select_toRow (r : PartitionRecord) :
    r.toRow.select columns = r.toRow.eraseIdx 8 :=
  rfl

theorem TimeRecord.select_toRow (r : TimeRecord) : r.toRow.select columns = r.toRow := rfl

theorem RunRecord.ofRow_toRow (r : RunRecord) :
    ofRow (r.toRow.select columns) = .ok r.settled := by
  have hresult : r.toRow.named 2 Classification.parse = .ok r.result :=
    Row.named_eq_ok rfl Classification.parse_name
  rw [select_toRow, ofRow, hresult]
  simp [toRow, settled, Row.decode, Row.timestamp]
  rfl

theorem IterationRecord.ofRow_toRow (r : IterationRecord) :
    ofRow (r.toRow.select columns) = .ok r.settled := by
  have hiteration : r.toRow.decode 2 Row.uint32? = .ok r.iteration :=
    Row.decode_eq_ok rfl (Row.uint32?_ofUInt32 _)
  have hresult : r.toRow.named 3 Classification.parse = .ok r.result :=
    Row.named_eq_ok rfl Classification.parse_name
  rw [select_toRow, ofRow, hiteration, hresult]
  simp [toRow, settled, Row.decode]
  rfl

theorem PartitionRecord.ofRow_toRow (r : PartitionRecord) :
    ofRow (r.toRow.select columns) = .ok r.settled := by
  have hiteration : Row.decode (r.toRow.eraseIdx 8) 2 Row.uint32? = .ok r.iteration :=
    Row.decode_eq_ok rfl (Row.uint32?_ofUInt32 _)
  have hpartition : Row.decode (r.toRow.eraseIdx 8) 3 Row.uint32? = .ok r.partition :=
    Row.decode_eq_ok rfl (Row.uint32?_ofUInt32 _)
  have hresult : Row.named (r.toRow.eraseIdx 8) 4 Classification.parse = .ok r.result :=
    Row.named_eq_ok rfl Classification.parse_name
  have hpc : Row.named (r.toRow.eraseIdx 8) 5 Status.parse = .ok r.pcStatus :=
    Row.named_eq_ok rfl Status.parse_name
  have hneq : Row.named (r.toRow.eraseIdx 8) 6 Status.parse = .ok r.neqStatus :=
    Row.named_eq_ok rfl Status.parse_name
  have heq : Row.named (r.toRow.eraseIdx 8) 7 Status.parse = .ok r.eqStatus :=
    Row.named_eq_ok rfl Status.parse_name
  rw [select_toRow, ofRow, hiteration, hpartition, hresult, hpc, hneq, heq]
  simp [toRow, settled, Row.decode]
  rfl

theorem TimeRecord.ofRow_toRow {r : TimeRecord} (h : r.runtime.isNaN = false) :
    ofRow (r.toRow.select columns) = .ok r.settled := by
  have hstep : r.toRow.decode 5 Row.uint32? = .ok r.step :=
    Row.decode_eq_ok rfl (Row.uint32?_ofUInt32 _)
  rw [select_toRow, ofRow, hstep]
  simp [toRow, settled, Row.decode, Row.real?_ofReal h]
  rfl

end Regression
