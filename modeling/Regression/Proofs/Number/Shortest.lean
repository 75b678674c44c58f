import Regression.Proofs.Number.Digits

/-!
# Shortest digits exist

Every finite positive number has a decimal of at most seventeen digits that reads back as it. The
decimals of seventeen digits lie closer together than the midpoints to the neighbours of the number.

* `Readings.onGrid?_isSome`: a grid that is fine enough has such a decimal.
* `Readings.search_spec`: what the search for one finds.
* `shortest_ne_zero`: a number that is not zero has digits.
-/

namespace Regression.Binary64

namespace Readings

variable {r : Readings} {tie : Tie} {unitNum unitDen : Nat}

theorem contains_of_onGrid? {digits : Nat} (h : r.onGrid? tie unitNum unitDen = some digits) :
    r.contains digits unitNum unitDen = true := by
  unfold onGrid? at h
  dsimp only at h
  split at h
  · next hfloor hnext =>
    split at h <;> cases h
    · exact hnext
    · exact hfloor
  · next hfloor _ =>
    cases h
    exact hfloor
  · next hnext =>
    cases h
    exact hnext
  · cases h

/-- A decimal that does not read back is not above one end, or not below the other. -/
theorem le_or_le_of_contains_eq_false {digits : Nat}
    (h : r.contains digits unitNum unitDen = false) :
    digits * unitNum * r.den ≤ r.low * unitDen ∨ r.high * unitDen ≤ digits * unitNum * r.den := by
  unfold contains at h
  dsimp only at h
  split at h
  · simp only [Bool.and_eq_false_iff, decide_eq_false_iff_not] at h
    omega
  · simp only [Bool.and_eq_false_iff, decide_eq_false_iff_not] at h
    omega

/-- Between two ends that lie farther apart than its decimals are, a grid has one. -/
theorem onGrid?_isSome (hlow : r.low < r.value) (hhigh : r.value < r.high)
    (hunitNum : 0 < unitNum) (hunitDen : 0 < unitDen) (hden : 0 < r.den)
    (hfine : r.low * unitDen + r.den * unitNum < r.high * unitDen) :
    (r.onGrid? tie unitNum unitDen).isSome := by
  have hstep : 0 < r.den * unitNum := Nat.mul_pos hden hunitNum
  have hlow : r.low * unitDen < r.value * unitDen := Nat.mul_lt_mul_of_pos_right hlow hunitDen
  have hhigh : r.value * unitDen < r.high * unitDen := Nat.mul_lt_mul_of_pos_right hhigh hunitDen
  have hwhole := Nat.div_add_mod (r.value * unitDen) (r.den * unitNum)
  have hrest := Nat.mod_lt (r.value * unitDen) hstep
  unfold onGrid?
  dsimp only
  generalize r.value * unitDen / (r.den * unitNum) = floor at hwhole ⊢
  have hfloor : floor * unitNum * r.den = r.den * unitNum * floor := by
    rw [Nat.mul_assoc, Nat.mul_comm, Nat.mul_comm unitNum]
  have hnext : (floor + 1) * unitNum * r.den = r.den * unitNum * floor + r.den * unitNum := by
    rw [Nat.mul_assoc, Nat.mul_comm, Nat.mul_comm unitNum, Nat.mul_succ]
  split
  · rfl
  · rfl
  · rfl
  · next hnone hnone' =>
    -- Neither of the two neighbours lies between the ends.
    have hbelow := le_or_le_of_contains_eq_false hnone
    have habove := le_or_le_of_contains_eq_false hnone'
    omega

/-- The search ends with the first grid that has a decimal which reads back. -/
theorem search_spec {point : Int} {tries count : Nat}
    (h : ∃ k, count ≤ k ∧ k < count + tries ∧
      (r.onGrid? tie (Nat.pow 10 (point - k).toNat) (Nat.pow 10 (-(point - k)).toNat)).isSome) :
    ∃ digits unit, r.search tie point tries count = (digits, unit) ∧
      r.contains digits (Nat.pow 10 unit.toNat) (Nat.pow 10 (-unit).toNat) = true := by
  induction tries generalizing count with
  | zero =>
    obtain ⟨k, hle, hlt, -⟩ := h
    omega
  | succ tries ih =>
    rw [search]
    split
    · next digits hdigits => exact ⟨digits, point - count, rfl, contains_of_onGrid? hdigits⟩
    · next hnone =>
      obtain ⟨k, hle, hlt, hk⟩ := h
      have hne : k ≠ count := by
        rintro rfl
        rw [hnone] at hk
        cases hk
      exact ih ⟨k, by omega, by omega, hk⟩

end Readings

/-! ## Seventeen digits -/

theorem decimalPoint_spec {num den : Nat} (hnum : 0 < num) (hden : 0 < den) :
    den * 10 ^ (decimalPoint num den - 1).toNat ≤ num * 10 ^ (1 - decimalPoint num den).toNat := by
  unfold decimalPoint
  split
  · next hle =>
    have hquotient : num / den ≠ 0 := by
      rw [Nat.div_ne_zero_iff]
      omega
    have hpow := pow_decimalLength_le hquotient
    have hlength : decimalLength (num / den) ≠ 0 := by
      rw [decimalLength_eq hquotient]
      omega
    have hpoint : ((decimalLength (num / den) : Int) - 1).toNat =
        decimalLength (num / den) - 1 := by omega
    have hrest : (1 - (decimalLength (num / den) : Int)).toNat = 0 := by omega
    rw [hpoint, hrest, Nat.pow_zero, Nat.mul_one]
    calc den * 10 ^ (decimalLength (num / den) - 1) ≤ den * (num / den) :=
          Nat.mul_le_mul_left den hpow
      _ ≤ num := Nat.mul_div_le num den
  · have hpow := lt_pow_decimalLength ((den - 1) / num)
    have hpoint : (1 - (decimalLength ((den - 1) / num) : Int) - 1).toNat = 0 := by omega
    have hrest : (1 - (1 - (decimalLength ((den - 1) / num) : Int))).toNat =
        decimalLength ((den - 1) / num) := by omega
    rw [hpoint, hrest, Nat.pow_zero, Nat.mul_one]
    have hlt : den - 1 < num * 10 ^ decimalLength ((den - 1) / num) := by
      rw [Nat.mul_comm]
      exact (Nat.div_lt_iff_lt_mul hnum).mp hpow
    omega

theorem significand_lt (x : Binary64) : x.significand < 2 ^ 53 := by
  have hfraction : x.fractionField < 2 ^ 52 := Nat.mod_lt _ (by decide)
  unfold significand
  split
  · omega
  · have hpow : Nat.pow 2 52 = 2 ^ 52 := rfl
    omega

theorem significand_pos {x : Binary64} (hx : x.isZero = false) : 0 < x.significand := by
  have hmagnitude : x.magnitude ≠ 0 := by simpa [isZero] using hx
  unfold significand
  split
  · next hexponent =>
    have hsplit := Nat.div_add_mod x.magnitude (Nat.pow 2 52)
    have hexponent : x.magnitude / Nat.pow 2 52 = 0 := hexponent
    rw [hexponent] at hsplit
    show 0 < x.magnitude % Nat.pow 2 52
    omega
  · have hpow : Nat.pow 2 52 = 2 ^ 52 := rfl
    omega

/-- The half gap below a number, in quarters of its last place. -/
theorem readings_low (x : Binary64) :
    ∃ gap, x.readings.low = (4 * x.significand - gap) * 2 ^ x.exponent.toNat ∧
      (gap = 2 ∨ gap = 1 ∧ x.significand = 2 ^ 52) := by
  unfold readings
  dsimp only
  split
  · next hpower =>
    simp only [Bool.and_eq_true, decide_eq_true_eq] at hpower
    refine ⟨1, rfl, .inr ⟨rfl, ?_⟩⟩
    rw [significand, if_neg (by omega), hpower.1]
    exact Nat.zero_add _
  · exact ⟨2, rfl, .inl rfl⟩

/-- A grid of seventeen digits is finer than the readings of a number are wide. -/
theorem readings_spec {x : Binary64} (hx : x.isZero = false) {unitNum unitDen : Nat}
    (hunitDen : 0 < unitDen)
    (hfine : x.readings.den * unitNum * 10 ^ 16 ≤ x.readings.value * unitDen) :
    x.readings.low < x.readings.value ∧ x.readings.value < x.readings.high ∧
      x.readings.low * unitDen + x.readings.den * unitNum < x.readings.high * unitDen := by
  obtain ⟨gap, hlow, hgap⟩ := x.readings_low
  have hvalue : x.readings.value = 4 * x.significand * 2 ^ x.exponent.toNat := rfl
  have hhigh : x.readings.high = (4 * x.significand + 2) * 2 ^ x.exponent.toNat := rfl
  have hpos := significand_pos hx
  have hlt := x.significand_lt
  have hscale : 0 < 2 ^ x.exponent.toNat := Nat.pow_pos (by omega)
  rw [hlow, hhigh]
  rw [hvalue] at hfine ⊢
  generalize 2 ^ x.exponent.toNat = scale at hfine hscale ⊢
  refine ⟨Nat.mul_lt_mul_of_pos_right (by omega) hscale,
    Nat.mul_lt_mul_of_pos_right (by omega) hscale, ?_⟩
  generalize x.readings.den * unitNum = step at hfine ⊢
  rw [Nat.mul_assoc (4 * x.significand)] at hfine
  rw [Nat.mul_assoc, Nat.mul_assoc]
  have hwidth : 0 < scale * unitDen := Nat.mul_pos hscale hunitDen
  generalize scale * unitDen = width at hfine hwidth ⊢
  have hhalves : (4 * x.significand + 2) * width =
      (4 * x.significand - gap) * width + (2 + gap) * width := by
    rw [← Nat.add_mul]
    congr 1
    omega
  rw [hhalves]
  refine Nat.add_lt_add_left ?_ _
  have hbound : 4 * x.significand < (2 + gap) * 10 ^ 16 := by omega
  have hmul : 4 * x.significand * width < (2 + gap) * 10 ^ 16 * width :=
    Nat.mul_lt_mul_of_pos_right hbound hwidth
  have hswap : (2 + gap) * 10 ^ 16 * width = (2 + gap) * width * 10 ^ 16 := by
    rw [Nat.mul_assoc, Nat.mul_comm (10 ^ 16), Nat.mul_assoc]
  rw [hswap] at hmul
  exact Nat.lt_of_mul_lt_mul_right (Nat.lt_of_le_of_lt hfine hmul)

/-- The shortest digits of a number and the unit of the last one, without trailing zeros left
out. -/
theorem search_readings {x : Binary64} (hx : x.isZero = false) (tie : Tie) :
    ∃ digits unit,
      x.readings.search tie (decimalPoint x.readings.value x.readings.den) 17 1 = (digits, unit) ∧
        x.readings.contains digits (Nat.pow 10 unit.toNat) (Nat.pow 10 (-unit).toNat) = true := by
  have hden : 0 < x.readings.den :=
    Nat.mul_pos (by omega) (Nat.pow_pos (by omega : 0 < 2))
  have hvalue : 0 < x.readings.value :=
    Nat.mul_pos (Nat.mul_pos (by omega) (significand_pos hx)) (Nat.pow_pos (by omega : 0 < 2))
  have hpoint := decimalPoint_spec hvalue hden
  generalize decimalPoint x.readings.value x.readings.den = point at hpoint ⊢
  apply Readings.search_spec
  refine ⟨17, by omega, by omega, ?_⟩
  have hunitNum : 0 < Nat.pow 10 (point - (17 : Nat)).toNat := Nat.pow_pos (by omega : 0 < 10)
  have hunitDen : 0 < Nat.pow 10 (-(point - (17 : Nat))).toNat := Nat.pow_pos (by omega : 0 < 10)
  have hfine : x.readings.den * Nat.pow 10 (point - (17 : Nat)).toNat * 10 ^ 16 ≤
      x.readings.value * Nat.pow 10 (-(point - (17 : Nat))).toNat := by
    -- Sixteen places lie between the first digit and the last one.
    have hplaces : (point - (17 : Nat)).toNat + 16 + (1 - point).toNat =
        (point - 1).toNat + (-(point - (17 : Nat))).toNat := by omega
    refine Nat.le_of_mul_le_mul_right ?_ (Nat.pow_pos (by omega) : 0 < 10 ^ (1 - point).toNat)
    show x.readings.den * 10 ^ (point - (17 : Nat)).toNat * 10 ^ 16 * 10 ^ (1 - point).toNat ≤
      x.readings.value * 10 ^ (-(point - (17 : Nat))).toNat * 10 ^ (1 - point).toNat
    rw [Nat.mul_assoc, Nat.mul_assoc, ← Nat.mul_assoc (10 ^ _) (10 ^ 16), ← Nat.pow_add,
      ← Nat.pow_add, hplaces, Nat.pow_add, ← Nat.mul_assoc, Nat.mul_right_comm x.readings.value]
    exact Nat.mul_le_mul_right _ hpoint
  obtain ⟨hlow, hhigh, hstep⟩ := readings_spec hx hunitDen hfine
  exact Readings.onGrid?_isSome hlow hhigh hunitNum hunitDen hden hstep

theorem contains_zero {x : Binary64} (hx : x.isZero = false) {unitNum unitDen : Nat}
    (hunitDen : 0 < unitDen) : x.readings.contains 0 unitNum unitDen = false := by
  obtain ⟨gap, hlow, hgap⟩ := x.readings_low
  have hsignificand := significand_pos hx
  have hpos : 0 < x.readings.low * unitDen := by
    rw [hlow]
    exact Nat.mul_pos (Nat.mul_pos (by omega) (Nat.pow_pos (by omega))) hunitDen
  unfold Readings.contains
  dsimp only
  rw [Nat.zero_mul, Nat.zero_mul]
  split
  · rw [decide_eq_false (by omega), Bool.false_and]
  · rw [decide_eq_false (by omega), Bool.false_and]

/-- A number that is not zero has digits. -/
theorem shortest_ne_zero {x : Binary64} (hx : x.isZero = false) (tie : Tie) :
    (x.shortest tie).1 ≠ 0 := by
  obtain ⟨digits, unit, hsearch, hcontains⟩ := search_readings hx tie
  have hdigits : digits ≠ 0 := by
    rintro rfl
    have hunitDen : 0 < Nat.pow 10 (-unit).toNat := Nat.pow_pos (by omega : 0 < 10)
    rw [contains_zero hx hunitDen] at hcontains
    cases hcontains
  unfold shortest
  rw [hx, if_neg Bool.false_ne_true]
  dsimp only
  rw [hsearch]
  exact dropZeros_ne_zero hdigits

end Regression.Binary64
