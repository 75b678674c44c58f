/-!
# Digits

Numbers written with the digits of a base up to 16, in either case of the letters.
-/

namespace Regression.Text

/-- The value of a digit in a base. -/
def digit? (base : Nat) (c : Char) : Option Nat :=
  let value :=
    if '0' ≤ c && c ≤ '9' then c.toNat - '0'.toNat
    else if 'a' ≤ c && c ≤ 'z' then c.toNat - 'a'.toNat + 10
    else if 'A' ≤ c && c ≤ 'Z' then c.toNat - 'A'.toNat + 10
    else base
  if value < base then some value else none

/-- The number that digits stand for. There has to be at least one. -/
def natural? (base : Nat) (cs : List Char) : Option Nat := do
  let digits ← cs.mapM (digit? base)
  if digits.isEmpty then none else some (digits.foldl (fun n d => base * n + d) 0)

end Regression.Text
