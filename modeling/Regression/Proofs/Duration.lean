import Regression.Duration

/-!
# Durations

Sums and differences of durations in nanoseconds, and the whole units in them.
-/

namespace Regression

namespace Duration

variable {a b now later start : Duration}

theorem ext (h : a.nanoseconds = b.nanoseconds) : a = b := congrArg Duration.mk h

theorem le_iff : a ≤ b ↔ a.nanoseconds ≤ b.nanoseconds := Iff.rfl

@[simp] theorem nanoseconds_add (a b : Duration) :
    (a + b).nanoseconds = a.nanoseconds + b.nanoseconds := rfl

@[simp] theorem nanoseconds_since (now start : Duration) :
    (now.since start).nanoseconds = now.nanoseconds - start.nanoseconds := rfl

theorem le_trans {c : Duration} (hab : a ≤ b) (hbc : b ≤ c) : a ≤ c := Nat.le_trans hab hbc

theorem le_add_right (a b : Duration) : a ≤ a + b := Nat.le_add_right _ _

theorem add_zero (a : Duration) : a + zero = a := rfl

theorem add_assoc (a b c : Duration) : a + b + c = a + (b + c) := ext (Nat.add_assoc _ _ _)

theorem add_since_self (a now : Duration) : a + now.since now = a :=
  ext (by rw [nanoseconds_add, nanoseconds_since, Nat.sub_self, Nat.add_zero])

theorem since_add_since (hnow : start ≤ now) (hlater : now ≤ later) :
    now.since start + later.since now = later.since start := by
  rw [le_iff] at hnow hlater
  exact ext (by simp only [nanoseconds_add, nanoseconds_since]; omega)

@[simp] theorem milliseconds_ofMilliseconds (n : Nat) : (ofMilliseconds n).milliseconds = n :=
  Nat.mul_div_cancel_left n (by decide)

@[simp] theorem wholeSeconds_ofSeconds (n : Nat) : (ofSeconds n).wholeSeconds = n :=
  Nat.mul_div_cancel_left n (by decide)

@[simp] theorem wholeSeconds_add_ofSeconds (a : Duration) (n : Nat) :
    (a + ofSeconds n).wholeSeconds = a.wholeSeconds + n :=
  Nat.add_mul_div_left _ _ (by decide)

theorem wholeSeconds_mono (h : a ≤ b) : a.wholeSeconds ≤ b.wholeSeconds := Nat.div_le_div_right h

end Duration

end Regression
