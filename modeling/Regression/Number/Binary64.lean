/-!
# Double-precision numbers

A number of the IEEE 754 format binary64, given by its 64 bits. Two numbers are the same when
their bits are, so that `0.0` and `-0.0` differ and a NaN equals itself; `le` and `beq` compare
by value instead.

A finite number is `m · 2 ^ q` with a natural `m < 2 ^ 53` and `-1074 ≤ q ≤ 971`, up to its sign.
`ofRatio` goes back: it picks the number nearest to a quotient of naturals.
-/

namespace Regression

structure Binary64 where
  bits : UInt64
  deriving DecidableEq, Hashable, Inhabited, Repr

namespace Binary64

/-! ## Taking a number apart -/

def isNegative (x : Binary64) : Bool := Nat.pow 2 63 ≤ x.bits.toNat

/-- The bits without the sign. They order the nonnegative numbers. -/
def magnitude (x : Binary64) : Nat := x.bits.toNat % Nat.pow 2 63

/-- The magnitude of infinity; all above it are NaN. -/
def infiniteMagnitude : Nat := 0x7FF * Nat.pow 2 52

def isNaN (x : Binary64) : Bool := infiniteMagnitude < x.magnitude

def isInfinite (x : Binary64) : Bool := x.magnitude == infiniteMagnitude

def isFinite (x : Binary64) : Bool := x.magnitude < infiniteMagnitude

def isZero (x : Binary64) : Bool := x.magnitude == 0

/-- The biased exponent field. -/
def exponentField (x : Binary64) : Nat := x.magnitude / Nat.pow 2 52

def fractionField (x : Binary64) : Nat := x.magnitude % Nat.pow 2 52

/-- The `m` of `m · 2 ^ q`. -/
def significand (x : Binary64) : Nat :=
  if x.exponentField = 0 then x.fractionField else x.fractionField + Nat.pow 2 52

/-- The `q` of `m · 2 ^ q`. -/
def exponent (x : Binary64) : Int := (max x.exponentField 1 : Nat) - 1075

/-- The absolute value as a quotient of naturals. -/
def ratio (x : Binary64) : Nat × Nat :=
  (x.significand * Nat.pow 2 x.exponent.toNat, Nat.pow 2 (-x.exponent).toNat)

/-! ## Building numbers -/

/-- The number with a given sign and magnitude. -/
def ofMagnitude (negative : Bool) (magnitude : Nat) : Binary64 :=
  ⟨UInt64.ofNat (magnitude + if negative then Nat.pow 2 63 else 0)⟩

def zero : Binary64 := ⟨0⟩

def infinity (negative : Bool) : Binary64 := ofMagnitude negative infiniteMagnitude

def nan : Binary64 := ofMagnitude false (infiniteMagnitude + Nat.pow 2 51)

def neg (x : Binary64) : Binary64 := ofMagnitude (!x.isNegative) x.magnitude

def abs (x : Binary64) : Binary64 := ofMagnitude false x.magnitude

/-- A quotient rounded to the nearest natural, halves to the even neighbour. -/
def roundHalfEven (num den : Nat) : Nat :=
  let floor := num / den
  let twice := 2 * (num % den)
  if twice < den then floor
  else if den < twice then floor + 1
  else floor + floor % 2

/-- The exponent at which `num / den` has a significand of 53 bits, or the least exponent. -/
def quotientExponent (num den : Nat) : Int :=
  let guess := max ((num.log2 : Int) - den.log2 - 53) (-1074)
  let fits := num * Nat.pow 2 (-guess).toNat < Nat.pow 2 53 * (den * Nat.pow 2 guess.toNat)
  if fits then guess else guess + 1

/-- The magnitude nearest to `num / den`, for positive `den`; quotients that are too large give
infinity. -/
def nearestMagnitude (num den : Nat) : Nat :=
  if num = 0 then 0
  else
    let q := quotientExponent num den
    let rounded := roundHalfEven (num * Nat.pow 2 (-q).toNat) (den * Nat.pow 2 q.toNat)
    min ((q + 1074).toNat * Nat.pow 2 52 + rounded) infiniteMagnitude

/-- The number nearest to `num / den`, with the given sign. -/
def ofRatio (negative : Bool) (num den : Nat) : Binary64 :=
  ofMagnitude negative (nearestMagnitude num den)

def ofNat (n : Nat) : Binary64 := ofRatio false n 1

def ofInt (i : Int) : Binary64 := ofRatio (i < 0) i.natAbs 1

/-- The sum of the absolute values of finite numbers, rounded. -/
def addAbs (x y : Binary64) : Binary64 :=
  let (a, b) := x.ratio
  let (c, d) := y.ratio
  ofRatio false (a * d + c * b) (b * d)

/-- The product of the absolute values, rounded. -/
def mulAbs (x y : Binary64) : Binary64 :=
  if x.isFinite && y.isFinite then
    let (a, b) := x.ratio
    let (c, d) := y.ratio
    ofRatio false (a * c) (b * d)
  else infinity false

/-- The quotient of the absolute values of finite numbers, rounded; `y` is not zero. -/
def divAbs (x y : Binary64) : Binary64 :=
  let (a, b) := x.ratio
  let (c, d) := y.ratio
  ofRatio false (a * d) (b * c)

/-! ## Order by value -/

/-- The place of a number that is not NaN on the number line; both zeros are at 0. -/
def place (x : Binary64) : Int := if x.isNegative then -(x.magnitude : Int) else x.magnitude

/-- Less than or equal by value; a NaN is comparable with nothing. -/
def le (x y : Binary64) : Bool := !x.isNaN && !y.isNaN && x.place ≤ y.place

/-- Equality by value; a NaN equals nothing, and both zeros are equal. -/
def beq (x y : Binary64) : Bool := !x.isNaN && !y.isNaN && x.place == y.place

end Binary64

end Regression
