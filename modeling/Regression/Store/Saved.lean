import Regression.Json.Basic
import Regression.Store.Relational

/-!
# Saved stores

A relational store as JSON: an object with an array of rows for each table. Points in time are saved
as texts, which the store reads as well.
-/

namespace Regression

def Value.toJson : Value → Json
  | .null => .null
  | .integer i => .int i
  | .real x => .real x
  | .text s => .text s
  | .timestamp t => .text t.text

def Value.ofJson? : Json → Option Value
  | .null => some .null
  | .int i => some (.integer i)
  | .real x => some (.real x)
  | .text s => some (.text s)
  | _ => none

def Row.toJson (row : Row) : Json :=
  .object (row.map fun (column, value) => (column, value.toJson))

def Row.ofJson? (j : Json) : Option Row := do
  (← j.object?).mapM fun (column, value) => do return (column, ← Value.ofJson? value)

namespace RelationalStore

def tables (s : RelationalStore) : List Table := [s.runs, s.iterations, s.partitions, s.times]

def toJson (s : RelationalStore) : Json :=
  .object (s.tables.map fun t => (t.name, .array (t.rows.map Row.toJson)))

/-- An empty table filled with its saved rows. -/
def filled? (t : Table) (fields : List (String × Json)) : Option Table := do
  let rows ← (← (← Json.field? fields t.name).array?).mapM Row.ofJson?
  return { t with rows }

def ofJson? (j : Json) : Option RelationalStore := do
  let fields ← j.object?
  return {
    runs := ← filled? empty.runs fields
    iterations := ← filled? empty.iterations fields
    partitions := ← filled? empty.partitions fields
    times := ← filled? empty.times fields }

end RelationalStore

end Regression
