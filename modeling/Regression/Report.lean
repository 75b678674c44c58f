import Regression.Aggregation
import Regression.Duration
import Regression.Failure
import Regression.Store.Record
import Regression.Text.Search

/-!
# Results files

A run leaves a readable file with one block for each iteration:

* a header, and the time each phase took;
* the output: `EQUIVALENT`, `NOT EQUIVALENT`, or `UNKNOWN` with a reason;
* a footer.

Other tools write such files too. Reading relies on the marker in the header and on the line with
the output only. The words for too much abstraction tell results that may differ from other
unknown results; they are taken out of any other reason.
-/

namespace Regression

structure ResultsBlock where
  timings : List (String × Duration) := []
  classification : Classification
  reason : Option String := none
  deriving Repr

namespace ResultsBlock

def marker : String := "--Results--"

def outputPrefix : String := "Output : "

def tooMuchAbstraction : String := "too much abstraction"

def header : String :=
  "-----------------------Results-------------------------------------------\n"

def footer : String := "-----------------------END-------------------------------------------\n"

def timingLine (phase : String) (elapsed : Duration) : String :=
  "  -" ++ phase ++ " : " ++ toString elapsed.milliseconds ++ " ms\n"

/-- A result without a reason names itself. -/
def defaultReason (c : Classification) : String :=
  String.ofList (c.name.toList.map Char.toLower)

def unknownOutput (reason : String) : String := "Output : UNKNOWN \nReason: " ++ reason ++ "\n"

def output (b : ResultsBlock) : String :=
  match b.classification with
  | .eq | .maybeEq => "Output : EQUIVALENT\n"
  | .neq => "Output : NOT EQUIVALENT\n"
  | .maybeNeq => unknownOutput tooMuchAbstraction
  | c => unknownOutput (Text.replace tooMuchAbstraction "" (b.reason.getD (defaultReason c)))

def text (b : ResultsBlock) : String :=
  header ++ String.join (b.timings.map fun (phase, elapsed) => timingLine phase elapsed) ++
    b.output ++ footer

end ResultsBlock

/-! ## Reading -/

/-- The text from the first output line on. -/
def outputOf? (block : String) : Option String :=
  (Text.after? ResultsBlock.outputPrefix block).map (ResultsBlock.outputPrefix ++ ·)

/-- Classify the output of one block. Equivalence is certain only if the exploration is known to
have been complete. -/
def classifyOutput (block : String) (isDepthLimited : Option Bool) :
    Except ParseFault Classification :=
  match outputOf? block with
  | none => .error (.noOutputLine (Text.trim block))
  | some output =>
    let startsWith (word : String) :=
      (Text.dropStart? (ResultsBlock.outputPrefix ++ word) output).isSome
    if startsWith "EQUIVALENT" then
      .ok (if isDepthLimited = some false then .eq else .maybeEq)
    else if startsWith "NOT EQUIVALENT" then .ok .neq
    else if startsWith "UNKNOWN" then
      .ok (if Text.occursIn ResultsBlock.tooMuchAbstraction output then .maybeNeq else .unknown)
    else .error (.unknownOutput (Text.trim ((Text.lines output).headD "")))

/-- The texts behind the markers of a file. -/
def blocksOf (text : String) : List String := (Text.pieces ResultsBlock.marker text).drop 1

/-- Classify all blocks of a file; `isDepthLimited` is asked for iterations counted from 1. -/
def parseResults (text : String) (isDepthLimited : UInt32 → Option Bool) :
    Except ParseFault (List Classification) :=
  (blocksOf text).zipIdx.mapM fun (block, i) =>
    classifyOutput block (isDepthLimited (.ofNat (i + 1)))

/-! ## Iterations of a run -/

/-- The only iteration of a run that left no file: it failed, or was stopped. -/
def missingIteration (benchmark tool errors : String) (timedOut : Bool) : IterationRecord :=
  { IterationRecord.started benchmark tool 1 with
    result := some (if timedOut then .timeout else .error)
    hasTimedOut := some timedOut
    errors := some errors }

/-- The iterations that the text of a results file tells of, if there is one. `errors` and `timedOut`
are known about the whole run: they override every result, and the expiry is noted with the last
iteration. -/
def readIterations (path : String) (file : Option String) (benchmark tool errors : String)
    (timedOut : Bool) (isDepthLimited : UInt32 → Option Bool) :
    Except Failure (List IterationRecord) :=
  let isError := !Text.isBlankText errors
  match file with
  | none =>
    if !isError && !timedOut then .error (.precondition (.results path))
    else .ok [missingIteration benchmark tool errors timedOut]
  | some text =>
    match parseResults text isDepthLimited with
    | .error fault => .error (.parse fault)
    | .ok outputs => .ok <| outputs.zipIdx.map fun (output, i) =>
      let number := UInt32.ofNat (i + 1)
      let isLast := i + 1 = outputs.length
      { IterationRecord.started benchmark tool number with
        result := some (classifyIteration [output] ⟨isError, timedOut⟩)
        hasTimedOut := some (isLast && timedOut)
        isDepthLimited := isDepthLimited number
        errors := some (if isLast || isError then errors else "") }

/-- The text of a file. -/
def textOf (content : Except FileError ByteArray) : Except Failure String :=
  match content with
  | .error e => .error (.ofFile e)
  | .ok bytes =>
    match String.fromUTF8? bytes with
    | some text => .ok text
    | none => .error (.io "stream did not contain valid UTF-8")

/-- The iterations that a results file tells of, given what is found at its path. -/
def readResults (path : String) (content : Except FileError ByteArray)
    (benchmark tool errors : String) (timedOut : Bool) (isDepthLimited : UInt32 → Option Bool) :
    Except Failure (List IterationRecord) :=
  match content with
  | .error e =>
    if e.isMissing then readIterations path none benchmark tool errors timedOut isDepthLimited
    else .error (.ofFile e)
  | .ok bytes => do
    let text ← textOf (.ok bytes)
    readIterations path (some text) benchmark tool errors timedOut isDepthLimited

/-! ## The file of a run -/

def resultsName : String := "results.txt"

/-- Where a run leaves its results. -/
def resultsPath (artifacts benchmark tool : String) : String :=
  joinPath (joinPath (joinPath artifacts benchmark) tool) resultsName

namespace FileWork

/-- Remove the results of an earlier run, if there are any. -/
def resetResults (path : String) : FileWork Unit :=
  tryCatch (remove path) fun e => if e = .notFound then return () else throw e

/-- Add to a results file, which is made with its directory if it does not exist. -/
def appendResults (path text : String) : FileWork Unit := do
  makeDirectories (directoryOf path)
  append path text

end FileWork

end Regression
