import Regression.Text.Search

/-!
# Command lines

A command line has a command with its options, and may ask for help or for the version instead. The
arguments are taken from the left, and the first one that asks for help decides, unless something
in front of it is wrong.

An option takes the next argument or what stands behind an equals sign in its own argument. The next
argument may not look like an option, and no option is given twice. Arguments behind `--` are never
options.
-/

namespace Regression

/-- Analyse a recorded trace. -/
structure CheckCommand where
  trace : String
  benchmark : String
  config : Option String := none
  database : String := "results.db"
  input : Option String := none
  deriving DecidableEq, Repr

/-- Classify the iterations of a results file. -/
structure ResultsCommand where
  file : String
  benchmark : String
  tool : String := "CEGAR"
  errors : String := ""
  timedOut : Bool := false
  deriving DecidableEq, Repr

inductive Command where
  | check (c : CheckCommand)
  | results (c : ResultsCommand)
  deriving DecidableEq, Repr

/-- What help is asked for. -/
inductive HelpTopic where
  | program
  | check
  | results
  /-- The command that explains the others. -/
  | help
  deriving DecidableEq, Repr

/-- What a command line asks for. -/
inductive CommandLine where
  | command (c : Command)
  | help (topic : HelpTopic)
  | version
  | misuse
  deriving DecidableEq, Repr

namespace CommandLine

/-! ## Arguments of a command -/

inductive OptionKind where
  /-- No value. -/
  | flag
  | text
  /-- A text that is not empty. -/
  | path
  deriving DecidableEq, Repr

/-- The options of a command, and the argument that is not an option, if it takes one. -/
structure Usage where
  options : List (String × OptionKind)
  operand : Option String := none

/-- The values of the options so far, by their names. -/
abbrev Values := List (String × String)

/-- Why the reading of arguments ends early. -/
inductive Interruption where
  | help
  | version
  | misuse
  deriving DecidableEq, Repr

def looksLikeOption (argument : String) : Bool :=
  argument.toList.head? == some '-' && argument != "-"

/-- Note the value of an option that was not given before. -/
def add (values : Values) (name : String) (kind : OptionKind) (value : String) :
    Except Interruption Values :=
  if values.any (·.1 = name) || (kind = .path && value.isEmpty) then .error .misuse
  else .ok ((name, value) :: values)

/-- The name in an argument and the value behind the first equals sign. -/
def nameAndValue (argument : String) : String × Option String :=
  match Text.splitFirst? ['='] argument.toList with
  | some (name, value) => (String.ofList name, some (String.ofList value))
  | none => (argument, none)

/-- Options that are written with one letter. -/
def addLetters (hasVersion : Bool) : List Char → Values → Except Interruption Values
  | [], values => .ok values
  | 'v' :: rest, values => do addLetters hasVersion rest (← add values "verbose" .flag "")
  | 'h' :: _, _ => .error .help
  | 'V' :: _, _ => .error (if hasVersion then .version else .misuse)
  | _ :: _, _ => .error .misuse

/-- Read the arguments of a command; `onlyOperands` is set behind `--`. -/
def read (usage : Usage) : (onlyOperands : Bool) → List String → Values →
    Except Interruption Values
  | _, [], values => .ok values
  | onlyOperands, argument :: rest, values =>
    let operand (_ : Unit) : Except Interruption Values := do
      match usage.operand with
      | some name => read usage onlyOperands rest (← add values name .path argument)
      | none => throw .misuse
    if onlyOperands then operand ()
    else if argument = "--" then read usage true rest values
    else
      match argument.toList with
      | '-' :: '-' :: name =>
        let (name, value) := nameAndValue (String.ofList name)
        match usage.options.find? (·.1 = name), value with
        | some (_, .flag), none => do read usage false rest (← add values name .flag "")
        | some (_, .flag), some _ => .error .misuse
        | some (_, kind), some value => do read usage false rest (← add values name kind value)
        | some (_, kind), none =>
          match rest with
          | [] => .error .misuse
          | value :: rest =>
            if looksLikeOption value then .error .misuse
            else do read usage false rest (← add values name kind value)
        | none, value => .error (if name = "help" && value.isNone then .help else .misuse)
      | '-' :: c :: letters => do read usage false rest (← addLetters false (c :: letters) values)
      | _ => operand ()

/-! ## Commands -/

def value? (values : Values) (name : String) : Option String :=
  (values.find? (·.1 = name)).map (·.2)

def checkUsage : Usage where
  options := [("trace", .path), ("benchmark", .text), ("config", .path), ("db", .path),
    ("input", .path), ("verbose", .flag)]

def checkOf? (values : Values) : Option CheckCommand := do
  let c : CheckCommand := {
    trace := ← value? values "trace"
    benchmark := ← value? values "benchmark" }
  return { c with
    config := value? values "config"
    database := (value? values "db").getD c.database
    input := value? values "input" }

def resultsUsage : Usage where
  options := [("benchmark", .text), ("tool", .text), ("errors", .text), ("timed-out", .flag),
    ("verbose", .flag)]
  operand := some "file"

def resultsOf? (values : Values) : Option ResultsCommand := do
  let c : ResultsCommand := {
    file := ← value? values "file"
    benchmark := ← value? values "benchmark" }
  return { c with
    tool := (value? values "tool").getD c.tool
    errors := (value? values "errors").getD c.errors
    timedOut := (value? values "timed-out").isSome }

def interrupted (topic : HelpTopic) : Interruption → CommandLine
  | .help => .help topic
  | .version => .version
  | .misuse => .misuse

/-- Read the arguments behind the name of a command. -/
def ofArguments (usage : Usage) (topic : HelpTopic) (command? : Values → Option Command)
    (arguments : List String) : CommandLine :=
  match read usage false arguments [] with
  | .error i => interrupted topic i
  | .ok values =>
    match command? values with
    | some c => .command c
    | none => .misuse

/-- The topic of the command that explains the others. -/
def helpTopic : List String → CommandLine
  | [] => .help .program
  | ["check"] => .help .check
  | ["results"] => .help .results
  | ["help"] => .help .help
  | _ => .misuse

/-- Read the arguments from the first one on; `values` are the options so far. -/
def parseFrom : List String → Values → CommandLine
  | [], _ => .misuse
  | "check" :: rest, _ => ofArguments checkUsage .check (fun v => (checkOf? v).map .check) rest
  | "results" :: rest, _ =>
    ofArguments resultsUsage .results (fun v => (resultsOf? v).map .results) rest
  | "help" :: rest, _ => helpTopic rest
  | "--help" :: _, _ => .help .program
  | "--version" :: _, _ => .version
  | argument :: rest, values =>
    let added := match argument.toList with
      | '-' :: '-' :: _ =>
        if argument = "--verbose" then add values "verbose" .flag "" else .error .misuse
      | '-' :: c :: letters => addLetters true (c :: letters) values
      | _ => .error .misuse
    match added with
    | .error i => interrupted .program i
    | .ok values => parseFrom rest values

def parse (arguments : List String) : CommandLine := parseFrom arguments []

end CommandLine

end Regression
