import Regression.Json.Basic

/-!
# Reading objects field by field

Objects that people write leave out what they do not need: a missing field counts as null. An
error names the field at fault. A value that has a form of its own, such as an expression, is
decoded as a whole instead, and is wrong as a whole.
-/

namespace Regression

inductive FieldError where
  /-- The field is missing, or its value is of the wrong kind. -/
  | field (name : String)
  /-- A value does not have the form it should have. -/
  | form
  deriving DecidableEq, Repr

/-- Readings that fail at a field. -/
abbrev FieldReader := Except FieldError

namespace Json

/-- The value of a field; null if it is missing. -/
def get (j : Json) (name : String) : Json :=
  match j with
  | .object fields => (field? fields name).getD .null
  | _ => .null

/-- A field that has to be there. -/
def required {α : Type} (j : Json) (name : String) (read : Json → Option α) : FieldReader α :=
  match read (j.get name) with
  | some a => .ok a
  | none => .error (.field name)

/-- A field that may be missing. -/
def optional {α : Type} (j : Json) (name : String) (read : Json → Option α) :
    FieldReader (Option α) :=
  match j.get name with
  | .null => .ok none
  | _ => (j.required name read).map some

/-- A field with a value of its own when it is missing. -/
def getOr {α : Type} (j : Json) (name : String) (default : α) (read : Json → Option α) :
    FieldReader α :=
  return (← j.optional name read).getD default

/-- A value with a form of its own. -/
def decoded {α : Type} (j : Json) (decode : Json → Option α) : FieldReader α :=
  match decode j with
  | some a => .ok a
  | none => .error .form

/-- A field for a value with a form of its own. -/
def decodedOr {α : Type} (j : Json) (name : String) (default : α) (decode : Json → Option α) :
    FieldReader α :=
  match j.get name with
  | .null => .ok default
  | value => value.decoded decode

/-- The items of a field, each read by itself. A missing field has none. -/
def items {α : Type} (j : Json) (name : String) (read : Json → FieldReader α) :
    FieldReader (List α) := do
  (← j.getOr name [] array?).mapM read

/-- A number that is natural. -/
def nat? (j : Json) : Option Nat := do
  let i ← j.int?
  if 0 ≤ i then some i.toNat else none

end Json

end Regression
