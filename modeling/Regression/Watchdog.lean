import Regression.Duration

/-!
# Watchdogs

A watchdog limits the length of a run. It expires when the clock reaches its deadline, and its
expiry is acted upon once.
-/

namespace Regression

/-- The end of the clock: no reading has more whole seconds than a signed 64-bit number. -/
def Duration.clockSeconds : Nat := Nat.pow 2 63 - 1

structure Watchdog where
  deadline : Duration
  limit : Duration
  hasFired : Bool := false
  deriving DecidableEq, Repr

namespace Watchdog

/-- A watchdog that expires after `limit`, unless the clock ends before. -/
def start? (now limit : Duration) : Option Watchdog :=
  let deadline := now + limit
  if deadline.wholeSeconds ≤ Duration.clockSeconds then some { deadline, limit } else none

def isExpired (w : Watchdog) (now : Duration) : Bool := w.deadline ≤ now

/-- Act upon the expiry: whether this is the first time. -/
def fire (w : Watchdog) : Bool × Watchdog := (!w.hasFired, { w with hasFired := true })

/-- Wait until the deadline, for the given time at most: whether the deadline was reached, and the
clock reading afterwards. -/
def wait (w : Watchdog) (now time : Duration) : Bool × Duration :=
  let target := now + time
  if w.isExpired now then (true, now)
  else if w.deadline ≤ target then (true, w.deadline)
  else (false, target)

end Watchdog

end Regression
