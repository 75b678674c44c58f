import Regression.Json.Basic

/-!
# Source locations

Where a branch condition comes from in the analysed program.
-/

namespace Regression

structure Location where
  filePath : String
  className : String
  methodName : String
  lineNumber : UInt32
  /-- The branch that was taken there, if the location has several. -/
  choice : Option UInt32 := none
  deriving DecidableEq, Hashable, Repr, Inhabited

namespace Location

def display (l : Location) : String :=
  l.filePath ++ ":" ++ toString l.lineNumber.toNat ++ " (" ++ l.className ++ "." ++ l.methodName ++
    ")" ++
    match l.choice with
    | some choice => " [choice " ++ toString choice.toNat ++ "]"
    | none => ""

def toJson (l : Location) : Json :=
  .object ([("file_path", .text l.filePath), ("class_name", .text l.className),
    ("method_name", .text l.methodName), ("line_number", .int l.lineNumber.toNat)] ++
    match l.choice with
    | some choice => [("choice", .int choice.toNat)]
    | none => [])

def ofJson? (j : Json) : Option Location := do
  let fields ← j.object?
  return {
    filePath := ← (← Json.field? fields "file_path").text?
    className := ← (← Json.field? fields "class_name").text?
    methodName := ← (← Json.field? fields "method_name").text?
    lineNumber := ← (← Json.field? fields "line_number").uint32?
    choice := ← Json.nullableField? fields "choice" Json.uint32? }

end Location

end Regression
