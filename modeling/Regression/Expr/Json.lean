import Regression.Expr.Basic

/-!
# Expressions as JSON

An expression is an object with a `kind`; the location of a binary node is left out when there is
none. Reals that are not finite have no JSON form and are written as `null`.

An expression is read as a whole, with all that it holds: nothing in it may be unreadable, not even
what no part of the expression stands for. The kind of a part may be given by its number.
-/

namespace Regression

namespace Constant

def toJson : Constant → Json
  | .int v => .object [("type", .text "int"), ("value", .int v.toInt)]
  | .real v => .object [("type", .text "real"), ("value", if v.isFinite then .real v else .null)]
  | .bool v => .object [("type", .text "bool"), ("value", .bool v)]
  | .string v => .object [("type", .text "string"), ("value", .text v)]

def ofJson? (j : Json) : Option Constant := do
  let fields ← j.object?
  let type ← (← Json.field? fields "type").partName?
  let value ← Json.field? fields "value"
  match type with
  | "int" => return .int (← value.int64?)
  | "real" => return .real (← value.number?)
  | "bool" => return .bool (← value.bool?)
  | "string" => return .string (← value.text?)
  | _ => none

end Constant

namespace Expr

mutual

def toJson : Expr → Json
  | .const v => .object [("kind", .text "constant"), ("value", v.toJson)]
  | .var x s =>
    .object [("kind", .text "variable"), ("name", .text x), ("sort", .text s.name)]
  | .binary op l r location =>
    .object ([("kind", .text "binary"), ("op", .text op.symbol), ("left", toJson l),
      ("right", toJson r)] ++
      match location with
      | some location => [("location", location.toJson)]
      | none => [])
  | .uif f s args =>
    .object [("kind", .text "uif"), ("name", .text f), ("sort", .text s.name),
      ("args", .array (toJsons args))]
  | .math f args =>
    .object [("kind", .text "math"), ("function", .text f.name), ("args", .array (toJsons args))]

def toJsons : List Expr → List Json
  | [] => []
  | e :: es => toJson e :: toJsons es

end

/-- The names of the kinds, in the order of their numbers. -/
def kindNames : List String := ["constant", "variable", "binary", "uif", "math"]

/-- The name of a kind that is given by its name or its number. -/
def kindName? : Json → Option String
  | .text name => some name
  | .int n => if 0 ≤ n then kindNames[n.toNat]? else none
  | _ => none

mutual

/-- A part of an expression. -/
def ofPart? : Json → Option Expr
  | .object fields => do
    match ← kindName? (← Json.field? fields "kind") with
    | "constant" => return .const (← Constant.ofJson? (← Json.field? fields "value"))
    | "variable" =>
      return .var (← (← Json.field? fields "name").text?)
        (← ValueSort.ofName? (← (← Json.field? fields "sort").partName?))
    | "binary" =>
      let op ← Operator.ofSymbol? (← (← Json.field? fields "op").partName?)
      match hl : Json.field? fields "left", hr : Json.field? fields "right" with
      | some left, some right =>
        have := Json.sizeOf_field? hl
        have := Json.sizeOf_field? hr
        return .binary op (← ofPart? left) (← ofPart? right)
          (← Json.nullableField? fields "location" Location.ofJson?)
      | _, _ => none
    | "uif" =>
      match ha : Json.field? fields "args" with
      | some (.array args) =>
        have := Json.sizeOf_field? ha
        return .uif (← (← Json.field? fields "name").text?)
          (← ValueSort.ofName? (← (← Json.field? fields "sort").partName?)) (← ofParts? args)
      | _ => none
    | "math" =>
      match ha : Json.field? fields "args" with
      | some (.array args) =>
        have := Json.sizeOf_field? ha
        return .math (← MathFunction.ofName? (← (← Json.field? fields "function").partName?))
          (← ofParts? args)
      | _ => none
    | _ => none
  | _ => none
termination_by j => sizeOf j
decreasing_by
  all_goals
    simp only [Json.object.sizeOf_spec, Json.array.sizeOf_spec] at *
    omega

def ofParts? : List Json → Option (List Expr)
  | [] => some []
  | j :: js => do return (← ofPart? j) :: (← ofParts? js)
termination_by js => sizeOf js

end

/-- An expression. The kind of the whole is given by its name. -/
def ofJson? (j : Json) : Option Expr := do
  let _ ← (← Json.field? (← j.object?) "kind").text?
  if j.isReadable then ofPart? j else none

end Expr

end Regression
