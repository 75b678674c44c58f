import Regression.Store.Record

/-!
# Tables

A relational table: named columns, of which the first ones form the primary key, and rows of
values. A value is null, an integer, a number, a text, or a point in time, which a database keeps
as a text of its own form.

Two of a database's habits show in what is read back: a number that is not a number is kept as
null, and an integral number as an integer, so that a zero loses its sign.
-/

namespace Regression

inductive Value where
  | null
  | integer (value : Int)
  | real (value : Binary64)
  | text (value : String)
  | timestamp (value : Timestamp)
  deriving DecidableEq, Repr, Inhabited

namespace Value

def ofOption {α : Type} (encode : α → Value) : Option α → Value
  | some a => encode a
  | none => .null

def ofBool (b : Bool) : Value := .integer (if b then 1 else 0)

def ofUInt32 (n : UInt32) : Value := .integer n.toNat

def ofReal (x : Binary64) : Value :=
  if x.isNaN then .null else if x.isZero then .real (.ofNat 0) else .real x

/-- The kind of a value, as error texts call it. -/
def kindName : Value → String
  | .null => "Null"
  | .integer _ => "Integer"
  | .real _ => "Real"
  | .text _ | .timestamp _ => "Text"

end Value

/-- The values of a row with the names of their columns. -/
abbrev Row := List (String × Value)

namespace Row

/-- The value of a column; null if there is none of the name. -/
def value (row : Row) (column : String) : Value :=
  match row.find? (·.1 = column) with
  | some (_, value) => value
  | none => .null

/-- The named columns of a row, in the given order. -/
def select (columns : List String) (row : Row) : Row :=
  columns.map fun column => (column, row.value column)

/-! ## Decoding columns

The columns of a selection are counted from 0. -/

/-- Decode one column of a selection. -/
def decode {α : Type} (row : Row) (i : Nat) (read : Value → Option α) : Except StorageError α :=
  match row[i]? with
  | some (column, value) =>
    match read value with
    | some a => .ok a
    | none => .error (.wrongType i column value.kindName)
  | none => .error (.wrongType i "" Value.null.kindName)

/-- A reader that accepts null. -/
def nullable {α : Type} (read : Value → Option α) : Value → Option (Option α)
  | .null => some none
  | value => (read value).map some

def text? : Value → Option String
  | .text s => some s
  | _ => none

def bool? : Value → Option Bool
  | .integer i => some (i ≠ 0)
  | _ => none

def uint32? : Value → Option UInt32
  | .integer i => if 0 ≤ i && i < UInt32.size then some (.ofNat i.toNat) else none
  | _ => none

def real? : Value → Option Binary64
  | .real x => some x
  | .integer i => some (.ofInt i)
  | _ => none

/-- A column with the name of something, or null. -/
def named {α : Type} (row : Row) (i : Nat) (parse : String → Except StorageError α) :
    Except StorageError (Option α) := do
  match ← row.decode i (nullable text?) with
  | none => return none
  | some name =>
    match parse name with
    | .ok a => return some a
    | .error e => .error (.badColumn i e)

/-- A point in time; also one written as text. -/
def timestamp (row : Row) (i : Nat) : Except StorageError Timestamp :=
  match row[i]? with
  | some (_, .timestamp t) => .ok t
  | some (_, .text s) =>
    match Timestamp.ofColumn s with
    | .ok t => .ok t
    | .error fault => .error (.badTimestamp i fault)
  | some (column, value) => .error (.wrongType i column value.kindName)
  | none => .error (.wrongType i "" Value.null.kindName)

end Row

structure Table where
  name : String
  columns : List String
  /-- The number of columns in the primary key. -/
  keyLength : Nat
  /-- The columns that must not be null, besides those of the key. -/
  required : List String := []
  rows : List Row := []
  deriving Repr

namespace Table

/-- The values of the primary key. -/
def key (t : Table) (row : Row) : List Value := (row.take t.keyLength).map (·.2)

/-- The required column in which a row has no value. -/
def missing? (t : Table) (row : Row) : Option String :=
  t.required.find? fun column => row.value column = .null

/-- Insert a row, in the place of an older one with the same key. -/
def insert (t : Table) (row : Row) : Except StorageError Table :=
  match t.missing? row with
  | some column => .error (.nullColumn t.name column)
  | none => .ok { t with rows := t.rows.filter (t.key · ≠ t.key row) ++ [row] }

/-- Whether the columns have the given values. -/
def agrees (row : Row) (condition : Row) : Bool :=
  condition.all fun (column, value) => row.value column = value

def delete (t : Table) (condition : Row) : Table :=
  { t with rows := t.rows.filter (!agrees · condition) }

/-- The rows that meet a condition, in the order in which they were inserted. -/
def find (t : Table) (columns : List String) (condition : Row) : List Row :=
  (t.rows.filter (agrees · condition)).map (Row.select columns)

/-- Set a column in all rows to a text. -/
def setAll (t : Table) (column text : String) : Table :=
  { t with rows := t.rows.map fun row => row.map fun (name, value) =>
      (name, if name = column then .text text else value) }

end Table

/-- The order of integers and texts in a column. -/
def Value.le : Value → Value → Bool
  | .integer i, .integer j => i ≤ j
  | .text s, .text t => s ≤ t
  | _, _ => true

/-- Rows in the order of some columns, the first one counting most. -/
def Row.le (columns : List String) (row row' : Row) : Bool :=
  match columns with
  | [] => true
  | column :: rest =>
    if row.value column = row'.value column then Row.le rest row row'
    else (row.value column).le (row'.value column)

end Regression
