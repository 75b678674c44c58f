import Regression.Text.Blank

/-!
# Tools and heuristics

A tool is the kind of analysis a run performs. Only one of them abstracts and refines; its
heuristic decides which abstracted unit is refined next.
-/

namespace Regression

/-- The order in which abstracted units are refined. -/
inductive Heuristic where
  /-- Units of inconclusive partitions only, if there are any: first those that the versions call
  differently often, then loop-free ones, then those with fewer call sites. -/
  | h123
  /-- Loop-free units first, then those with fewer call sites. -/
  | h3
  /-- In the order of declaration. -/
  | r
  deriving DecidableEq, Repr, Inhabited

namespace Heuristic

def all : List Heuristic := [.h123, .h3, .r]

def name : Heuristic → String
  | .h123 => "H123"
  | .h3 => "H3"
  | .r => "R"

def ofName? (name : String) : Option Heuristic := all.find? (·.name = name)

/-- Prefers units that occur in inconclusive partitions. -/
def usesOccurrence : Heuristic → Bool
  | .h123 => true
  | .h3 | .r => false

/-- Prefers units that the versions call differently often. -/
def usesDivergence : Heuristic → Bool
  | .h123 => true
  | .h3 | .r => false

/-- Prefers loop-free units, then few call sites. -/
def usesShape : Heuristic → Bool
  | .h123 | .h3 => true
  | .r => false

end Heuristic

inductive Tool where
  /-- Symbolic execution of each version. -/
  | se
  /-- Symbolic execution of both versions with a shared driver. -/
  | dse
  /-- Abstraction with refinement. -/
  | cegar
  deriving DecidableEq, Repr, Inhabited

namespace Tool

def all : List Tool := [.se, .dse, .cegar]

def name : Tool → String
  | .se => "SE"
  | .dse => "DSE"
  | .cegar => "CEGAR"

def ofName? (name : String) : Option Tool := all.find? (·.name = name)

/-- Whether the tool may analyse more than once. -/
def canIterate : Tool → Bool
  | .cegar => true
  | .se | .dse => false

/-- The name under which results are stored. It shows the heuristic of a refining tool, unless it
is the first one. -/
def label (tool : Tool) (heuristic : Heuristic) : String :=
  match tool, heuristic with
  | .cegar, .h123 => "CEGAR"
  | .cegar, h => "CEGAR-" ++ h.name
  | tool, _ => tool.name

end Tool

/-- A name as users type it: blanks around it and the case of ASCII letters do not matter. -/
def typedName (text : String) : String :=
  String.ofList ((Text.trim text).toList.map Char.toUpper)

/-- No heuristic or tool has the name that a user typed. -/
structure UnknownName where
  kind : String
  name : String
  expected : List String
  deriving DecidableEq, Repr

namespace UnknownName

def message (e : UnknownName) : String :=
  "unknown " ++ e.kind ++ " '" ++ e.name ++ "', expected one of " ++ ", ".intercalate e.expected

end UnknownName

def Heuristic.parse (text : String) : Except UnknownName Heuristic :=
  match ofName? (typedName text) with
  | some h => .ok h
  | none => .error ⟨"heuristic", text, all.map name⟩

def Tool.parse (text : String) : Except UnknownName Tool :=
  match ofName? (typedName text) with
  | some t => .ok t
  | none => .error ⟨"tool", text, all.map name⟩

end Regression
