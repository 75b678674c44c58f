import Regression.Number.Binary64

/-!
# Shortest decimal digits

The decimal digits of a finite positive number: the fewest that read back as the same number, and
of those with as many digits the nearest. Of two that are equally near, either the upper one is
taken or the one with an even last digit. The reals that read back as `m · 2 ^ q` lie between the
midpoints to its neighbours; the midpoints themselves belong to it when `m` is even.

A decimal is `0.d₁d₂… · 10 ^ point`, given by the natural `d₁d₂…` and by `point`.
-/

namespace Regression

namespace Binary64

/-- The number of decimal digits; 0 has none. -/
def decimalLength (n : Nat) : Nat :=
  if n = 0 then 0 else decimalLength (n / 10) + 1
termination_by n
decreasing_by omega

/-- The `k` with `10 ^ (k - 1) ≤ num / den < 10 ^ k`, for a positive quotient. -/
def decimalPoint (num den : Nat) : Int :=
  if den ≤ num then decimalLength (num / den)
  else 1 - (decimalLength ((den - 1) / num) : Int)

/-- Which of two equally near decimals is taken. -/
inductive Tie where
  | up
  /-- The one with an even last digit. -/
  | even
  deriving DecidableEq, Repr

/-- The reals that read back as one number, as multiples of `1 / den`; the ends belong to them
when `closed`. -/
structure Readings where
  low : Nat
  value : Nat
  high : Nat
  den : Nat
  closed : Bool

/-- The readings of a finite positive number. Below a power of two the gap is half as wide. -/
def readings (x : Binary64) : Readings :=
  let scale := Nat.pow 2 x.exponent.toNat
  let low := if x.fractionField = 0 && 1 < x.exponentField then 1 else 2
  { low := (4 * x.significand - low) * scale
    value := 4 * x.significand * scale
    high := (4 * x.significand + 2) * scale
    den := 4 * Nat.pow 2 (-x.exponent).toNat
    closed := x.significand % 2 == 0 }

namespace Readings

/-- Whether `digits · unitNum / unitDen` reads back as the number. -/
def contains (r : Readings) (digits unitNum unitDen : Nat) : Bool :=
  let place := digits * unitNum * r.den
  let low := r.low * unitDen
  let high := r.high * unitDen
  if r.closed then low ≤ place && place ≤ high else low < place && place < high

/-- Of the two decimals next to the value on the grid of multiples of `unitNum / unitDen`, the
nearest one that reads back. -/
def onGrid? (r : Readings) (tie : Tie) (unitNum unitDen : Nat) : Option Nat :=
  let num := r.value * unitDen
  let den := r.den * unitNum
  let floor := num / den
  let twice := 2 * (num % den)
  let up := den < twice || (den = twice && (tie = .up || floor % 2 = 1))
  match r.contains floor unitNum unitDen, r.contains (floor + 1) unitNum unitDen with
  | true, true => some (if up then floor + 1 else floor)
  | true, false => some floor
  | false, true => some (floor + 1)
  | false, false => none

/-- Try the grids of `count` digits, `count + 1` digits and so on. -/
def search (r : Readings) (tie : Tie) (point : Int) : Nat → Nat → Nat × Int
  | 0, count => (0, point - count)
  | tries + 1, count =>
    let unit := point - count
    match r.onGrid? tie (Nat.pow 10 unit.toNat) (Nat.pow 10 (-unit).toNat) with
    | some digits => (digits, unit)
    | none => r.search tie point tries (count + 1)

end Readings

/-- A number without its trailing zeros, and how many there were. -/
def dropZeros (n : Nat) : Nat × Nat :=
  if n = 0 then (0, 0)
  else if n % 10 = 0 then
    let (digits, count) := dropZeros (n / 10)
    (digits, count + 1)
  else (n, 0)
termination_by n
decreasing_by omega

/-- The shortest digits of a finite number and the place of the decimal point in front of which
they stand. Seventeen digits always read back. Zero has no digits. -/
def shortest (tie : Tie) (x : Binary64) : Nat × Int :=
  if x.isZero then (0, 0)
  else
    let r := x.readings
    let (digits, unit) := r.search tie (decimalPoint r.value r.den) 17 1
    let (digits, zeros) := dropZeros digits
    (digits, unit + zeros + decimalLength digits)

end Binary64

end Regression
