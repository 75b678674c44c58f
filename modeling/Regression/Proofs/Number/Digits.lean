import Mathlib.Algebra.Group.Nat.Defs
import Regression.Number.Notation

/-!
# Written natural numbers

* `isDigit_eq`: the digits of numbers are the usual ones.
* `digitsValue_toDigits`: the digits of a number have its value.
* `head?_toDigits`: only zero is written with a zero in front.
* `pow_decimalLength_le`, `lt_pow_decimalLength`: a number lies between two powers of ten.
* `dropZeros_mul`: the trailing zeros of a number.
-/

namespace Regression.Binary64

theorem isDigit_eq (c : Char) : isDigit c = c.isDigit := by
  unfold isDigit digit? Char.isDigit
  split <;> simp_all [Char.le_def]

theorem isDigit_of_mem_toDigits {c : Char} {n : Nat} (hc : c ∈ Nat.toDigits 10 n) :
    isDigit c = true := by
  rw [isDigit_eq]
  exact Nat.isDigit_of_mem_toDigits (by omega) (by omega) hc

theorem digit?_digitChar {d : Nat} (hd : d < 10) : digit? d.digitChar = some d := by
  have hall : ∀ d < 10, digit? (Nat.digitChar d) = some d := by decide
  exact hall d hd

theorem digitsValue_append_singleton (cs : List Char) (c : Char) :
    digitsValue (cs ++ [c]) = 10 * digitsValue cs + (digit? c).getD 0 := by
  unfold digitsValue
  rw [List.foldl_append]
  rfl

theorem digitsValue_toDigits (n : Nat) : digitsValue (Nat.toDigits 10 n) = n := by
  induction n using Nat.strongRecOn with
  | ind n ih =>
    by_cases hlt : n < 10
    · rw [Nat.toDigits_of_lt_base hlt]
      show 10 * 0 + (digit? n.digitChar).getD 0 = n
      rw [digit?_digitChar hlt]
      exact Nat.zero_add n
    · have hge : 10 ≤ n := by omega
      rw [Nat.toDigits_of_base_le (by omega) hge, digitsValue_append_singleton,
        ih (n / 10) (by omega), digit?_digitChar (by omega)]
      exact Nat.div_add_mod n 10

/-- Digits behind other ones shift these to the left. -/
theorem digitsValue_append (cs ds : List Char) :
    digitsValue (cs ++ ds) = digitsValue cs * 10 ^ ds.length + digitsValue ds := by
  induction ds generalizing cs with
  | nil =>
    rw [List.append_nil]
    exact (Nat.mul_one _).symm
  | cons d ds ih =>
    have hfirst : digitsValue (d :: ds) = digitsValue [d] * 10 ^ ds.length + digitsValue ds :=
      ih [d]
    have hdigit : digitsValue (cs ++ [d]) = digitsValue cs * 10 + digitsValue [d] := by
      rw [digitsValue_append_singleton, Nat.mul_comm]
      exact congrArg _ (Nat.zero_add _).symm
    rw [List.append_cons, ih, hdigit, hfirst, List.length_cons, Nat.pow_succ', Nat.add_mul,
      Nat.mul_assoc, Nat.add_assoc]

theorem digitsValue_replicate (n : Nat) : digitsValue (List.replicate n '0') = 0 := by
  induction n with
  | zero => rfl
  | succ n ih => rw [List.replicate_succ', digitsValue_append_singleton, ih]; rfl

theorem head?_toDigits {n : Nat} (hn : n ≠ 0) : (Nat.toDigits 10 n).head? ≠ some '0' := by
  induction n using Nat.strongRecOn with
  | ind n ih =>
    by_cases hlt : n < 10
    · rw [Nat.toDigits_of_lt_base hlt]
      intro h
      have hdigit : n.digitChar = '0' := Option.some.inj h
      have hvalue := digit?_digitChar hlt
      rw [hdigit] at hvalue
      have hzero : some 0 = some n := hvalue
      exact hn (Option.some.inj hzero).symm
    · have hge : 10 ≤ n := by omega
      rw [Nat.toDigits_of_base_le (by omega) hge, List.head?_append,
        List.head?_eq_some_head Nat.toDigits_ne_nil, Option.some_or, ← List.head?_eq_some_head]
      exact ih (n / 10) (by omega) (by omega)

/-! ## Lengths -/

theorem decimalLength_eq {n : Nat} (hn : n ≠ 0) : decimalLength n = decimalLength (n / 10) + 1 := by
  rw [decimalLength, if_neg hn]

/-- A number has as many digits as are written. -/
theorem length_toDigits {n : Nat} (hn : n ≠ 0) : (Nat.toDigits 10 n).length = decimalLength n := by
  induction n using Nat.strongRecOn with
  | ind n ih =>
    by_cases hlt : n < 10
    · have hzero : n / 10 = 0 := by omega
      have hlength : decimalLength 0 = 0 := by rw [decimalLength, if_pos rfl]
      rw [Nat.toDigits_of_lt_base hlt, decimalLength_eq hn, hzero, hlength]
      rfl
    · rw [Nat.toDigits_of_base_le (by omega) (by omega), List.length_append,
        ih (n / 10) (by omega) (by omega), decimalLength_eq hn]
      rfl

theorem lt_pow_decimalLength (n : Nat) : n < 10 ^ decimalLength n := by
  induction n using Nat.strongRecOn with
  | ind n ih =>
    by_cases hn : n = 0
    · subst hn
      exact Nat.pow_pos (by omega)
    · have hrest := ih (n / 10) (by omega)
      rw [decimalLength_eq hn, Nat.pow_succ]
      omega

theorem pow_decimalLength_le {n : Nat} (hn : n ≠ 0) : 10 ^ (decimalLength n - 1) ≤ n := by
  induction n using Nat.strongRecOn with
  | ind n ih =>
    rw [decimalLength_eq hn, Nat.add_sub_cancel]
    by_cases hlt : n < 10
    · have hzero : n / 10 = 0 := by omega
      have hlength : decimalLength 0 = 0 := by rw [decimalLength, if_pos rfl]
      rw [hzero, hlength]
      omega
    · have hrest := ih (n / 10) (by omega) (by omega)
      have hpos : decimalLength (n / 10) = decimalLength (n / 10) - 1 + 1 := by
        rw [decimalLength_eq (by omega : n / 10 ≠ 0)]
        omega
      rw [hpos, Nat.pow_succ]
      omega

/-- The number with its trailing zeros again. -/
theorem dropZeros_mul (n : Nat) : (dropZeros n).1 * 10 ^ (dropZeros n).2 = n := by
  induction n using Nat.strongRecOn with
  | ind n ih =>
    rw [dropZeros]
    split
    · next hn => rw [hn, Nat.zero_mul]
    · split
      · dsimp only
        rw [Nat.pow_succ, ← Nat.mul_assoc, ih (n / 10) (by omega)]
        omega
      · exact Nat.mul_one n

/-- Trailing zeros do not make up a number. -/
theorem dropZeros_ne_zero {n : Nat} (hn : n ≠ 0) : (dropZeros n).1 ≠ 0 := by
  induction n using Nat.strongRecOn with
  | ind n ih =>
    rw [dropZeros, if_neg hn]
    split
    · exact ih (n / 10) (by omega) (by omega)
    · exact hn

end Regression.Binary64
