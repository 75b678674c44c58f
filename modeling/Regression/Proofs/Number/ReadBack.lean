import Mathlib.Algebra.Order.Field.Power
import Mathlib.Data.Rat.Cast.Order
import Mathlib.Tactic.FieldSimp
import Mathlib.Tactic.Linarith
import Mathlib.Tactic.Positivity
import Mathlib.Tactic.Ring
import Regression.Proofs.Number.Plain

/-!
# Decimals that read back

A decimal is read as the finite number that is nearest to it; halfway between two numbers it is the
one with an even significand. The numbers next to `m · 2 ^ q` are one step of `2 ^ q` away, but the
one below a power of two is only half as far. So whatever lies between the midpoints is read as the
number in the middle, and the shortest digits of a number are such a decimal.

* `Binary64.ReadsBack`: what it is to be read as a number.
* `Binary64.size_add_step_le`, `Binary64.size_le_sub_stepBelow`: the gaps beside a number.
* `Binary64.readsBack_of_contains`: what lies between the midpoints.
* `Binary64.readsBack_shortest`, `Binary64.readsBack_decimalParts`: shortest digits read back, and
  so do the decimals of scripts.
-/

namespace Regression.Binary64

/-! ## Numbers as quotients -/

/-- The absolute value of a finite number. -/
def size (x : Binary64) : ℚ := x.significand * 2 ^ x.exponent

/-- How far away the next larger number is. -/
def step (x : Binary64) : ℚ := 2 ^ x.exponent

/-- How far away the next smaller number is. -/
def stepBelow (x : Binary64) : ℚ :=
  if x.fractionField = 0 ∧ 1 < x.exponentField then x.step / 2 else x.step

/-- A quotient that is not negative is read as a finite number, up to the sign: it is nearer to no
other one, and as near only if the significand is even. It is not too far away either, which matters
for the largest number. -/
structure ReadsBack (x : Binary64) (q : ℚ) : Prop where
  isFinite : x.isFinite
  close : |q - x.size| ≤ x.step / 2
  nearest : ∀ y : Binary64, y.isFinite → |q - x.size| ≤ |q - y.size|
  even : ∀ y : Binary64, y.isFinite → |q - x.size| = |q - y.size| →
    y.size = x.size ∨ x.significand % 2 = 0

theorem step_pos (x : Binary64) : 0 < x.step := zpow_pos two_pos _

theorem size_eq (x : Binary64) : x.size = x.significand * x.step := rfl

theorem stepBelow_bounds (x : Binary64) : 0 < x.stepBelow ∧ x.stepBelow ≤ x.step := by
  have hpos := x.step_pos
  unfold stepBelow
  split
  · exact ⟨half_pos hpos, half_le_self hpos.le⟩
  · exact ⟨hpos, le_rfl⟩

/-! ## Gaps -/

/-- A number with a greater exponent is a multiple of the step. -/
theorem exists_size_eq {x y : Binary64} (h : x.exponent ≤ y.exponent) :
    ∃ n : ℕ, y.size = n * x.step := by
  obtain ⟨k, hk⟩ := Int.le.dest h
  refine ⟨y.significand * 2 ^ k, ?_⟩
  rw [size, step, ← hk, zpow_add₀ two_ne_zero, zpow_natCast]
  push_cast
  ring

/-- Above the least exponent there is no number below `2 ^ 52` steps, and those that have exactly as
many are the powers of two. -/
theorem significand_of_exponent {x : Binary64} (h : -1074 < x.exponent) :
    x.significand = x.fractionField + 2 ^ 52 ∧ 1 < x.exponentField := by
  have hexponent : x.exponent = (max x.exponentField 1 : Nat) - 1075 := rfl
  have hfield : 1 < x.exponentField := by omega
  exact ⟨if_neg (by omega), hfield⟩

theorem neg_le_exponent (x : Binary64) : -1074 ≤ x.exponent := by
  have hexponent : x.exponent = (max x.exponentField 1 : Nat) - 1075 := rfl
  omega

/-- A number with a smaller exponent is at least half a step below `2 ^ 52` steps. -/
theorem size_le_of_exponent_lt {x y : Binary64} (h : y.exponent < x.exponent) :
    y.size ≤ (2 ^ 52 - 1 / 2) * x.step := by
  have hstep : 2 * y.step ≤ x.step := by
    have hle : (2 : ℚ) ^ (y.exponent + 1) ≤ 2 ^ x.exponent := zpow_le_zpow_right₀ one_le_two h
    rwa [zpow_add₀ two_ne_zero, zpow_one, mul_comm] at hle
  have hsignificand : (y.significand : ℚ) ≤ 2 ^ 53 - 1 := by
    have hlt : y.significand + 1 ≤ 2 ^ 53 := y.significand_lt
    have hcast : ((y.significand + 1 : ℕ) : ℚ) ≤ ((2 ^ 53 : ℕ) : ℚ) := Nat.cast_le.mpr hlt
    push_cast at hcast
    linarith
  calc y.size ≤ (2 ^ 53 - 1) * y.step := mul_le_mul_of_nonneg_right hsignificand y.step_pos.le
    _ = (2 ^ 52 - 1 / 2) * (2 * y.step) := by ring
    _ ≤ (2 ^ 52 - 1 / 2) * x.step := mul_le_mul_of_nonneg_left hstep (by norm_num)

/-- A larger number is at least one step away. -/
theorem size_add_step_le {x y : Binary64} (h : x.size < y.size) : x.size + x.step ≤ y.size := by
  have hpos := x.step_pos
  by_cases hexponent : x.exponent ≤ y.exponent
  · obtain ⟨n, hn⟩ := exists_size_eq hexponent
    rw [hn, size_eq, mul_lt_mul_iff_left₀ hpos, Nat.cast_lt] at h
    have hle : ((x.significand + 1 : ℕ) : ℚ) ≤ n := Nat.cast_le.mpr h
    push_cast at hle
    calc x.size + x.step = (x.significand + 1) * x.step := by rw [size_eq]; ring
      _ ≤ n * x.step := mul_le_mul_of_nonneg_right hle hpos.le
      _ = y.size := hn.symm
  · have hexponent : y.exponent < x.exponent := not_le.mp hexponent
    have hnormal := (significand_of_exponent (y.neg_le_exponent.trans_lt hexponent)).1
    have hsmall := size_le_of_exponent_lt hexponent
    have hlarge : (2 ^ 52 : ℚ) ≤ x.significand := by
      rw [hnormal]
      push_cast
      linarith [(Nat.cast_nonneg x.fractionField : (0 : ℚ) ≤ x.fractionField)]
    have hsize : (2 ^ 52 : ℚ) * x.step ≤ x.size := mul_le_mul_of_nonneg_right hlarge hpos.le
    linarith

/-- A smaller number is at least one step away, or half a step below a power of two. -/
theorem size_le_sub_stepBelow {x y : Binary64} (h : y.size < x.size) :
    y.size ≤ x.size - x.stepBelow := by
  have hpos := x.step_pos
  obtain ⟨-, hbelow⟩ := x.stepBelow_bounds
  by_cases hexponent : x.exponent ≤ y.exponent
  · obtain ⟨n, hn⟩ := exists_size_eq hexponent
    rw [hn, size_eq, mul_lt_mul_iff_left₀ hpos, Nat.cast_lt] at h
    have hle : ((n + 1 : ℕ) : ℚ) ≤ x.significand := Nat.cast_le.mpr h
    push_cast at hle
    have hmul : ((n : ℚ) + 1) * x.step ≤ x.size := mul_le_mul_of_nonneg_right hle hpos.le
    linarith
  · have hexponent : y.exponent < x.exponent := not_le.mp hexponent
    obtain ⟨hnormal, hfield⟩ := significand_of_exponent (y.neg_le_exponent.trans_lt hexponent)
    have hsmall := size_le_of_exponent_lt hexponent
    have hsize : x.size = (x.fractionField + 2 ^ 52) * x.step := by
      rw [size_eq, hnormal]
      push_cast
      rfl
    rw [hsize, stepBelow]
    split
    · next hpower =>
      rw [hpower.1]
      push_cast
      linarith
    · next hpower =>
      have hfraction : 1 ≤ x.fractionField := by
        by_contra hzero
        exact hpower ⟨by omega, hfield⟩
      have hmul : (1 : ℚ) * x.step ≤ x.fractionField * x.step :=
        mul_le_mul_of_nonneg_right (Nat.one_le_cast.mpr hfraction) hpos.le
      linarith

/-! ## Between the midpoints -/

/-- What lies between the midpoints to the neighbours is read as the number in the middle, where the
midpoints themselves need an even significand. -/
theorem readsBack_of_between {x : Binary64} {q : ℚ} (hfinite : x.isFinite)
    (hlow : x.size - x.stepBelow / 2 ≤ q) (hhigh : q ≤ x.size + x.step / 2)
    (hodd : x.significand % 2 ≠ 0 → x.size - x.stepBelow / 2 < q ∧ q < x.size + x.step / 2) :
    x.ReadsBack q := by
  obtain ⟨hpos, hbelow⟩ := x.stepBelow_bounds
  have hclose : |q - x.size| ≤ x.step / 2 := abs_le.mpr ⟨by linarith, by linarith⟩
  -- Every other number lies beyond one of the two neighbours.
  have hother (y : Binary64) (hne : y.size ≠ x.size) :
      |q - x.size| ≤ |q - y.size| ∧ (x.significand % 2 ≠ 0 → |q - x.size| < |q - y.size|) := by
    rcases lt_or_gt_of_ne hne with hlt | hgt
    · have hgap := size_le_sub_stepBelow hlt
      have habs : |q - y.size| = q - y.size := abs_of_nonneg (by linarith)
      rw [habs, abs_le, abs_lt]
      refine ⟨⟨by linarith, by linarith⟩, fun h => ?_⟩
      obtain ⟨hleft, hright⟩ := hodd h
      exact ⟨by linarith, by linarith⟩
    · have hgap := size_add_step_le hgt
      have habs : |q - y.size| = -(q - y.size) := abs_of_nonpos (by linarith)
      rw [habs, abs_le, abs_lt]
      refine ⟨⟨by linarith, by linarith⟩, fun h => ?_⟩
      obtain ⟨hleft, hright⟩ := hodd h
      exact ⟨by linarith, by linarith⟩
  refine ⟨hfinite, hclose, fun y _ => ?_, fun y _ heq => ?_⟩
  · by_cases hsame : y.size = x.size
    · rw [hsame]
    · exact (hother y hsame).1
  · by_contra hneither
    obtain ⟨hne, hodd⟩ := not_or.mp hneither
    exact absurd heq ((hother y hne).2 hodd).ne

/-- A power is a quotient of natural powers. -/
theorem zpow_eq_div (b : ℚ) (e : ℤ) : b ^ e = b ^ e.toNat / b ^ (-e).toNat := by
  rcases le_total 0 e with h | h
  · obtain ⟨n, rfl⟩ := Int.eq_ofNat_of_zero_le h
    simp
  · obtain ⟨n, hn⟩ := Int.eq_ofNat_of_zero_le (neg_nonneg.mpr h)
    obtain rfl : e = -n := by omega
    simp

/-- The way to the next smaller number, in quarters of a step. -/
theorem readings_low_eq (x : Binary64) :
    ∃ gap : ℕ, gap ≤ 2 ∧ x.readings.low = (4 * x.significand - gap) * 2 ^ x.exponent.toNat ∧
      x.stepBelow / 2 = gap * (x.step / 4) := by
  unfold readings stepBelow
  dsimp only
  by_cases hpower : x.fractionField = 0 ∧ 1 < x.exponentField
  · rw [if_pos hpower, if_pos (by simpa using hpower)]
    exact ⟨1, by omega, rfl, by push_cast; ring⟩
  · rw [if_neg hpower, if_neg (by simpa using hpower)]
    exact ⟨2, by omega, rfl, by push_cast; ring⟩

/-- The ends of the readings are the midpoints to the neighbours. -/
theorem readings_ends {x : Binary64} (hx : x.isZero = false) :
    (x.readings.low : ℚ) = (x.size - x.stepBelow / 2) * x.readings.den ∧
      (x.readings.high : ℚ) = (x.size + x.step / 2) * x.readings.den := by
  have hden : (x.readings.den : ℚ) = 4 * 2 ^ (-x.exponent).toNat := by
    rw [show x.readings.den = 4 * 2 ^ (-x.exponent).toNat from rfl]
    push_cast
    rfl
  have hstep : x.step * x.readings.den = 4 * 2 ^ x.exponent.toNat := by
    rw [step, zpow_eq_div, hden]
    field_simp
  constructor
  · obtain ⟨gap, hgap, hlow, hbelow⟩ := x.readings_low_eq
    have hle : gap ≤ 4 * x.significand := by
      have hpos := significand_pos hx
      omega
    calc (x.readings.low : ℚ) = (4 * x.significand - gap) * 2 ^ x.exponent.toNat := by
          rw [hlow]
          push_cast [hle]
          rfl
      _ = (x.significand - gap / 4) * (x.step * x.readings.den) := by rw [hstep]; ring
      _ = (x.size - x.stepBelow / 2) * x.readings.den := by rw [hbelow, size_eq]; ring
  · calc (x.readings.high : ℚ) = (4 * x.significand + 2) * 2 ^ x.exponent.toNat := by
          rw [show x.readings.high = (4 * x.significand + 2) * 2 ^ x.exponent.toNat from rfl]
          push_cast
          rfl
      _ = (x.significand + 1 / 2) * (x.step * x.readings.den) := by rw [hstep]; ring
      _ = (x.size + x.step / 2) * x.readings.den := by rw [size_eq]; ring

section

variable {digits unitNum unitDen den bound : ℕ} {q : ℚ}

/-- A decimal is compared with a bound on a common denominator. -/
theorem le_place_iff (hbound : (bound : ℚ) = q * den) (hunit : 0 < unitDen) (hden : 0 < den) :
    bound * unitDen ≤ digits * unitNum * den ↔ q ≤ (digits * unitNum / unitDen : ℚ) := by
  have hunit : (0 : ℚ) < unitDen := Nat.cast_pos.mpr hunit
  have hden : (0 : ℚ) < den := Nat.cast_pos.mpr hden
  rw [← Nat.cast_le (α := ℚ), le_div_iff₀ hunit]
  push_cast
  rw [hbound, mul_right_comm, mul_le_mul_iff_left₀ hden]

theorem place_le_iff (hbound : (bound : ℚ) = q * den) (hunit : 0 < unitDen) (hden : 0 < den) :
    digits * unitNum * den ≤ bound * unitDen ↔ (digits * unitNum / unitDen : ℚ) ≤ q := by
  have hunit : (0 : ℚ) < unitDen := Nat.cast_pos.mpr hunit
  have hden : (0 : ℚ) < den := Nat.cast_pos.mpr hden
  rw [← Nat.cast_le (α := ℚ), div_le_iff₀ hunit]
  push_cast
  rw [hbound, mul_right_comm q, mul_le_mul_iff_left₀ hden]

end

/-- A decimal among the readings of a number reads back as it. -/
theorem readsBack_of_contains {x : Binary64} (hfinite : x.isFinite) (hx : x.isZero = false)
    {digits unitNum unitDen : ℕ} (hunit : 0 < unitDen)
    (h : x.readings.contains digits unitNum unitDen = true) :
    x.ReadsBack (digits * unitNum / unitDen) := by
  obtain ⟨hlow, hhigh⟩ := readings_ends hx
  have hden : 0 < x.readings.den := Nat.mul_pos (by omega) (Nat.pow_pos (by omega : 0 < 2))
  have hclosed : x.readings.closed = (x.significand % 2 == 0) := rfl
  unfold Readings.contains at h
  rw [hclosed] at h
  by_cases heven : x.significand % 2 = 0
  · rw [heven] at h
    obtain ⟨hleft, hright⟩ : _ ∧ _ := by simpa using h
    exact readsBack_of_between hfinite ((le_place_iff hlow hunit hden).mp hleft)
      ((place_le_iff hhigh hunit hden).mp hright) (absurd heven)
  · rw [beq_eq_false_iff_ne.mpr heven] at h
    obtain ⟨hleft, hright⟩ : _ ∧ _ := by simpa using h
    have hleft := lt_of_not_ge (mt (place_le_iff hlow hunit hden).mpr (not_le.mpr hleft))
    have hright := lt_of_not_ge (mt (le_place_iff hhigh hunit hden).mpr (not_le.mpr hright))
    exact readsBack_of_between hfinite hleft.le hright.le fun _ => ⟨hleft, hright⟩

/-! ## Shortest digits -/

/-- Zero is read as zero. -/
theorem readsBack_zero {x : Binary64} (hx : x.isZero) : x.ReadsBack 0 := by
  have hmagnitude : x.magnitude = 0 := by simpa [isZero] using hx
  have hexponent : x.exponentField = 0 := by rw [exponentField, hmagnitude, Nat.zero_div]
  have hsignificand : x.significand = 0 := by
    rw [significand, if_pos hexponent, fractionField, hmagnitude, Nat.zero_mod]
  have hsize : x.size = 0 := by rw [size_eq, hsignificand, Nat.cast_zero, zero_mul]
  have hfinite : x.isFinite := by
    rw [isFinite, hmagnitude]
    decide
  have hstep := x.step_pos
  have hbelow := x.stepBelow_bounds.1
  refine readsBack_of_between hfinite (by linarith) (by linarith) fun hodd => ?_
  rw [hsignificand] at hodd
  exact absurd rfl hodd

/-- The shortest digits of a number read back as it. -/
theorem readsBack_shortest {x : Binary64} (hfinite : x.isFinite) (tie : Tie) :
    x.ReadsBack ((x.shortest tie).1 *
      10 ^ ((x.shortest tie).2 - decimalLength (x.shortest tie).1 : ℤ)) := by
  cases hx : x.isZero with
  | true =>
    have hzero : x.shortest tie = (0, 0) := by rw [shortest, if_pos hx]
    rw [hzero, Nat.cast_zero, zero_mul]
    exact readsBack_zero hx
  | false =>
    obtain ⟨digits, unit, hsearch, hcontains⟩ := search_readings hx tie
    have hshortest : x.shortest tie = ((dropZeros digits).1,
        unit + (dropZeros digits).2 + decimalLength (dropZeros digits).1) := by
      unfold shortest
      rw [hx, if_neg Bool.false_ne_true]
      dsimp only
      rw [hsearch]
    have hvalue : ((dropZeros digits).1 : ℚ) * 10 ^ (unit + (dropZeros digits).2 : ℤ) =
        digits * (Nat.pow 10 unit.toNat : ℕ) / (Nat.pow 10 (-unit).toNat : ℕ) := by
      have hdigits : (digits : ℚ) = (dropZeros digits).1 * 10 ^ (dropZeros digits).2 := by
        rw [← Nat.cast_ofNat, ← Nat.cast_pow, ← Nat.cast_mul, dropZeros_mul]
      rw [zpow_add₀ (by norm_num), zpow_natCast, zpow_eq_div, hdigits, Nat.pow_eq, Nat.pow_eq]
      push_cast
      ring
    rw [hshortest]
    dsimp only
    rw [add_sub_cancel_right, hvalue]
    exact readsBack_of_contains hfinite hx (Nat.pow_pos (by omega : 0 < 10)) hcontains

/-! ## Decimals of scripts -/

/-- The value of a decimal with these digits in front of the point and behind it. -/
def decimalValue (whole fraction : List Char) : ℚ :=
  digitsValue (whole ++ fraction) / 10 ^ fraction.length

theorem digitsValue_zero : digitsValue ['0'] = 0 := by decide

/-- Digits behind the point, and zeros in front of them. -/
theorem decimalValue_behind (ds : List Char) (k : ℕ) :
    decimalValue ['0'] (List.replicate k '0' ++ ds) =
      digitsValue ds * 10 ^ (-k - ds.length : ℤ) := by
  rw [decimalValue, digitsValue_append, digitsValue_append, digitsValue_zero,
    digitsValue_replicate, List.length_append, List.length_replicate, ← neg_add', zpow_neg,
    ← Nat.cast_add, zpow_natCast, div_eq_mul_inv]
  simp

/-- Digits in front of the point, and zeros behind them. -/
theorem decimalValue_front (ds : List Char) (k : ℕ) :
    decimalValue (ds ++ List.replicate k '0') ['0'] = digitsValue ds * 10 ^ (k : ℤ) := by
  rw [decimalValue, digitsValue_append, digitsValue_append, digitsValue_replicate,
    digitsValue_zero, List.length_replicate, zpow_natCast]
  push_cast
  simp

/-- Digits on both sides of the point. -/
theorem decimalValue_across (ds : List Char) {k : ℕ} (hk : k ≤ ds.length) :
    decimalValue (ds.take k) (ds.drop k) = digitsValue ds * 10 ^ (k - ds.length : ℤ) := by
  rw [decimalValue, List.take_append_drop, List.length_drop, ← neg_sub, ← Nat.cast_sub hk,
    zpow_neg, zpow_natCast, div_eq_mul_inv]

/-- The decimal of a number in a script consists of its shortest digits. -/
theorem decimalValue_decimalParts (x : Binary64) :
    decimalValue x.decimalParts.1 x.decimalParts.2 = (x.shortest .up).1 *
      10 ^ ((x.shortest .up).2 - decimalLength (x.shortest .up).1 : ℤ) := by
  unfold decimalParts
  by_cases hx : x.isZero = true
  · have hzero : x.shortest .up = (0, 0) := by rw [shortest, if_pos hx]
    have hvalue : digitsValue (['0'] ++ ['0']) = 0 := by decide
    rw [if_pos hx, hzero, decimalValue, hvalue]
    simp
  · have hdigits := shortest_ne_zero (Bool.eq_false_iff.mpr hx) .up
    rw [if_neg hx]
    generalize (x.shortest .up).1 = n at hdigits ⊢
    generalize (x.shortest .up).2 = point
    rw [← length_toDigits hdigits]
    have hvalue := digitsValue_toDigits n
    generalize Nat.toDigits 10 n = ds at hvalue ⊢
    dsimp only
    rw [← hvalue]
    split
    · next hpoint =>
      obtain ⟨k, rfl⟩ : ∃ k : ℕ, point = -k := ⟨(-point).toNat, by omega⟩
      rw [neg_neg, Int.toNat_natCast]
      exact decimalValue_behind _ k
    · split
      · next hcount =>
        obtain ⟨k, hk⟩ := Int.le.dest hcount
        rw [← hk, add_sub_cancel_left, Int.toNat_natCast]
        exact decimalValue_front _ k
      · next hpoint hcount =>
        obtain ⟨k, rfl⟩ : ∃ k : ℕ, point = k := ⟨point.toNat, by omega⟩
        rw [Int.toNat_natCast]
        exact decimalValue_across _ (by omega)

/-- The decimal of a number in a script reads back as it. -/
theorem readsBack_decimalParts {x : Binary64} (hfinite : x.isFinite) :
    x.ReadsBack (decimalValue x.decimalParts.1 x.decimalParts.2) := by
  rw [decimalValue_decimalParts]
  exact readsBack_shortest hfinite .up

end Regression.Binary64
