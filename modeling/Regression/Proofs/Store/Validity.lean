import Regression.Failure
import Regression.Proofs.Computation
import Regression.Proofs.Text
import Regression.Store.Basic

/-!
# Rows that say what went wrong

A row with an error is refused by the store unless it has a text that is not blank. A failure always
has such a text, even where nothing was reported about it. Iterations and runs that were stopped by
the watchdog are to have a text as well, although the store does not ask for it.

* `Failure.isBlankText_message`: no failure has a blank text.
* `StoreWrite.Sound`: the store takes the row, and the row says what went wrong.
* `ResultStore.validate_eq_error`: nothing else is called invalid than what fails the check.
-/

namespace Regression

/-- What is shown of a failure begins with its kind. -/
theorem Failure.isBlankText_message (e : Failure) : Text.isBlankText e.message = false := by
  cases e <;> first | exact Text.isBlankText_append_left (by decide) _ | decide

theorem hasText_some {text : String} (h : Text.isBlankText text = false) :
    hasText (some text) = true := by
  simp [hasText, h]

/-! ## Results that call for a text -/

/-- A row with one of these results has a text. -/
def Explains (results : List Classification) (result : Option Classification)
    (errors : Option String) : Prop :=
  ∀ c ∈ results, result = some c → hasText errors = true

theorem explains_none (results : List Classification) (errors : Option String) :
    Explains results none errors := by
  intro c _ hnone
  cases hnone

theorem Explains.of_hasText {errors : Option String} (h : hasText errors = true)
    (results : List Classification) (result : Option Classification) :
    Explains results result errors :=
  fun _ _ _ => h

theorem Explains.requireErrorText_eq {results : List Classification}
    {result : Option Classification} {errors : Option String} (h : Explains results result errors)
    (herror : .error ∈ results) (what : String) : requireErrorText what result errors = .ok () := by
  unfold requireErrorText
  by_cases hresult : result = some .error
  · have htext : hasText errors = true := h .error herror hresult
    simp [htext]
  · simp [hresult]

namespace StoreWrite

/-- Errors say what went wrong, and so does everything that the watchdog stopped. -/
def Explained : StoreWrite → Prop
  | .run row => Explains [.error, .timeout] row.result row.errors
  | .iteration row => Explains [.error, .timeout] row.result row.errors
  | .partition row => Explains [.error] row.result row.errors
  | .time _ | .deleteRun .. => True

/-- The store takes the row, and the row says what went wrong. -/
structure Sound (w : StoreWrite) : Prop where
  valid : w.validate = .ok ()
  explained : w.Explained

theorem sound_run {row : RunRecord} (h : Explains [.error, .timeout] row.result row.errors) :
    (run row).Sound :=
  ⟨h.requireErrorText_eq (by simp) _, h⟩

theorem sound_iteration {row : IterationRecord}
    (h : Explains [.error, .timeout] row.result row.errors) : (iteration row).Sound :=
  ⟨h.requireErrorText_eq (by simp) _, h⟩

/-- The classification of a partition is none of whole runs. -/
theorem sound_partition {row : PartitionRecord} (h : Explains [.error] row.result row.errors)
    (hlevel : ∀ c, row.result = some c → c.isRunLevelOnly = false) : (partition row).Sound := by
  refine ⟨?_, h⟩
  have hnone : row.result.filter Classification.isRunLevelOnly = none := by
    rw [Option.filter_eq_none_iff]
    intro c hc
    simp [hlevel c hc]
  rw [validate, PartitionRecord.validate, hnone]
  exact h.requireErrorText_eq (by simp) _

theorem sound_time (row : TimeRecord) : (time row).Sound := ⟨rfl, trivial⟩

theorem sound_deleteRun (benchmark tool : String) : (deleteRun benchmark tool).Sound :=
  ⟨rfl, trivial⟩

end StoreWrite

/-! ## Refusals -/

theorem MemoryStore.validate_eq_error {s : MemoryStore} {w : StoreWrite} {e : StorageError}
    (h : s.write w = .error e) : w.validate = .error e := by
  rcases eq_error_of_bind h with hcheck | ⟨_, -, hput⟩
  · exact hcheck
  · cases hput

theorem Table.kind_of_insert_eq_error {t : Table} {row : Row} {e : StorageError}
    (h : t.insert row = .error e) : e.kind = .database := by
  unfold insert at h
  split at h
  · cases h
    rfl
  · cases h

/-- Besides the check of rows, only columns without a value are refused. -/
theorem RelationalStore.validate_eq_error {s : RelationalStore} {w : StoreWrite} {e : StorageError}
    (h : s.write w = .error e) (hkind : e.kind ≠ .database) : w.validate = .error e := by
  rcases eq_error_of_bind h with hcheck | ⟨_, -, hwrite⟩
  · exact hcheck
  cases w with
  | deleteRun => cases hwrite
  | run | iteration | partition | time =>
    rcases eq_error_of_bind hwrite with hinsert | ⟨_, -, hput⟩
    · exact absurd (Table.kind_of_insert_eq_error hinsert) hkind
    · cases hput

theorem ResultStore.validate_eq_error {store : ResultStore} {w : StoreWrite} {e : StorageError}
    (h : store.write w = .error e) (hkind : e.kind = .invalidRecord) : w.validate = .error e := by
  cases store with
  | memory s => exact s.validate_eq_error (eq_error_of_map h)
  | relational s =>
    refine s.validate_eq_error (eq_error_of_map h) ?_
    rw [hkind]
    decide

end Regression
