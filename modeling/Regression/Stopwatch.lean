import Regression.Duration
import Regression.Store.Record
import Regression.Text.Search

/-!
# Stopwatches

Every step of a run has a stopwatch, named by a topic or by a topic and a task with a colon
between them. A stopwatch may be started and stopped several times; its time is the length of all
the intervals in which it ran.
-/

namespace Regression

structure Stopwatch where
  name : String
  /-- The length of the intervals that have ended. -/
  accumulated : Duration := .zero
  /-- The clock reading at which it was started, if it runs. -/
  runningSince : Option Duration := none
  deriving DecidableEq, Repr

namespace Stopwatch

def elapsed (w : Stopwatch) (now : Duration) : Duration :=
  match w.runningSince with
  | some start => w.accumulated + now.since start
  | none => w.accumulated

def isRunning (w : Stopwatch) : Bool := w.runningSince.isSome

/-- A stopwatch that runs already keeps running. -/
def start (w : Stopwatch) (now : Duration) : Stopwatch :=
  if w.isRunning then w else { w with runningSince := some now }

def stop (w : Stopwatch) (now : Duration) : Stopwatch :=
  { w with accumulated := w.elapsed now, runningSince := none }

/-- Topic and task of a name. -/
def topicAndTask (name : String) : String × String :=
  match Text.splitFirst? [':'] name.toList with
  | some (topic, task) => (String.ofList topic, String.ofList task)
  | none => (name, "")

/-- The record of the stopwatch that was started at a place in the order. -/
def record (w : Stopwatch) (benchmark tool : String) (step : UInt32) (now : Duration) :
    TimeRecord :=
  let (topic, task) := topicAndTask w.name
  { benchmark, tool, topic, task, step
    runtime := (w.elapsed now).seconds
    isMissing := w.isRunning }

end Stopwatch

/-- The stopwatches of a run, in the order in which they were first started. -/
abbrev Stopwatches := List Stopwatch

namespace Stopwatches

def get? (watches : Stopwatches) (name : String) : Option Stopwatch :=
  watches.find? (·.name = name)

/-- Start a stopwatch, which is made if there is none of the name. -/
def start (watches : Stopwatches) (name : String) (now : Duration) : Stopwatches :=
  if (watches.get? name).isSome then
    watches.map fun w => if w.name = name then w.start now else w
  else watches ++ [{ name, runningSince := some now }]

def stop (watches : Stopwatches) (name : String) (now : Duration) : Stopwatches :=
  watches.map fun w => if w.name = name then w.stop now else w

def stopAll (watches : Stopwatches) (now : Duration) : Stopwatches := watches.map (·.stop now)

def elapsed? (watches : Stopwatches) (name : String) (now : Duration) : Option Duration :=
  (watches.get? name).map (·.elapsed now)

/-- The total time; zero for a stopwatch that was never started. -/
def total (watches : Stopwatches) (name : String) (now : Duration) : Duration :=
  (watches.elapsed? name now).getD .zero

def isRunning (watches : Stopwatches) (name : String) : Bool :=
  (watches.get? name).any (·.isRunning)

/-- The records of all stopwatches, with steps counted from 1. -/
def records (watches : Stopwatches) (benchmark tool : String) (now : Duration) :
    List TimeRecord :=
  watches.zipIdx.map fun (w, i) => w.record benchmark tool (.ofNat (i + 1)) now

end Stopwatches

end Regression
