import Regression.Number.Binary64

/-!
# Durations

Lengths of time in nanoseconds. A clock reading is the length of time since the clock started.
-/

namespace Regression

structure Duration where
  nanoseconds : Nat
  deriving DecidableEq, Repr, Inhabited

namespace Duration

def zero : Duration := ⟨0⟩

def ofMicroseconds (n : Nat) : Duration := ⟨1000 * n⟩

def ofMilliseconds (n : Nat) : Duration := ⟨1000000 * n⟩

def ofSeconds (n : Nat) : Duration := ⟨1000000000 * n⟩

/-- Whole milliseconds. -/
def milliseconds (d : Duration) : Nat := d.nanoseconds / 1000000

/-- Whole seconds. -/
def wholeSeconds (d : Duration) : Nat := d.nanoseconds / 1000000000

/-- The nanoseconds behind the whole seconds. -/
def subsecond (d : Duration) : Nat := d.nanoseconds % 1000000000

/-- The seconds of a duration as they are stored: the whole ones and the rest are rounded each, and
their sum is rounded again. -/
def seconds (d : Duration) : Binary64 :=
  (Binary64.ofNat d.wholeSeconds).addAbs (.ofRatio false d.subsecond 1000000000)

/-- The time between two clock readings; zero if the second is not later. -/
def since (now start : Duration) : Duration := ⟨now.nanoseconds - start.nanoseconds⟩

def later (start d : Duration) : Duration := ⟨start.nanoseconds + d.nanoseconds⟩

instance : Add Duration := ⟨later⟩

instance : LE Duration := ⟨fun a b => a.nanoseconds ≤ b.nanoseconds⟩

instance (a b : Duration) : Decidable (a ≤ b) :=
  inferInstanceAs (Decidable (a.nanoseconds ≤ b.nanoseconds))

instance : LT Duration := ⟨fun a b => a.nanoseconds < b.nanoseconds⟩

instance (a b : Duration) : Decidable (a < b) :=
  inferInstanceAs (Decidable (a.nanoseconds < b.nanoseconds))

end Duration

end Regression
