import Regression.Number.Notation
import Regression.Text.Quoted

/-!
# JSON values

A number is an integer between `-2 ^ 63` and `2 ^ 64 - 1` when it is written as one, and a
double-precision number otherwise; `1` and `1.0` are different values. An object keeps its fields
in the order in which they were written, repetitions included.

Some of what a text may hold has the form of a value without being one, such as a number that is
too large. It does no harm where nobody looks at it: a decoder that passes over a field passes over
whatever the field holds.

The accessors give `none` for a value of another kind, so that a decoder is a chain of accessors.
-/

namespace Regression

inductive Json where
  | null
  | bool (value : Bool)
  | int (value : Int)
  | real (value : Binary64)
  | text (value : String)
  | array (items : List Json)
  | object (fields : List (String × Json))
  /-- Has the form of a value only. -/
  | unreadable
  deriving Inhabited, Repr

namespace Json

mutual

/-- Whether there are nothing but values in a value. -/
def isReadable : Json → Bool
  | .array items => areReadable items
  | .object fields => haveReadable fields
  | .unreadable => false
  | _ => true

def areReadable : List Json → Bool
  | [] => true
  | item :: rest => isReadable item && areReadable rest

def haveReadable : List (String × Json) → Bool
  | [] => true
  | field :: rest => hasReadable field && haveReadable rest

def hasReadable : String × Json → Bool
  | (_, value) => isReadable value

end

/-! ## Accessors -/

def bool? : Json → Option Bool
  | .bool b => some b
  | _ => none

def int? : Json → Option Int
  | .int i => some i
  | _ => none

def text? : Json → Option String
  | .text s => some s
  | _ => none

/-- A name out of a fixed set: a text, or an object whose only field has that name and no value. -/
def name? : Json → Option String
  | .text s => some s
  | .object [(s, .null)] => some s
  | _ => none

/-- A name inside an expression, where the only field of an object may hold an empty object too. -/
def partName? : Json → Option String
  | .object [(s, .object [])] => some s
  | j => j.name?

def array? : Json → Option (List Json)
  | .array items => some items
  | _ => none

def object? : Json → Option (List (String × Json))
  | .object fields => some fields
  | _ => none

/-- Any number, rounded to double precision. -/
def number? : Json → Option Binary64
  | .int i => some (.ofInt i)
  | .real x => some x
  | _ => none

/-- An integer that fits into 64 bits with sign. -/
def int64? (j : Json) : Option Int64 := do
  let i ← j.int?
  if Int64.minValue.toInt ≤ i && i ≤ Int64.maxValue.toInt then some (.ofInt i) else none

/-- A natural number below `2 ^ 32`. -/
def uint32? (j : Json) : Option UInt32 := do
  let i ← j.int?
  if 0 ≤ i && i < UInt32.size then some (.ofNat i.toNat) else none

/-- A natural number below `2 ^ 64`. -/
def uint64? (j : Json) : Option UInt64 := do
  let i ← j.int?
  if 0 ≤ i && i < UInt64.size then some (.ofNat i.toNat) else none

/-- The values of all fields with a given name. -/
def valuesOf (name : String) : List (String × Json) → List Json
  | [] => []
  | (key, value) :: rest =>
    if key = name then value :: valuesOf name rest else valuesOf name rest

/-- A field that must be there, once. -/
def field? (fields : List (String × Json)) (name : String) : Option Json :=
  match valuesOf name fields with
  | [value] => some value
  | _ => none

/-- A field that may be missing, but not repeated. -/
def optionalField? (fields : List (String × Json)) (name : String) : Option (Option Json) :=
  match valuesOf name fields with
  | [] => some none
  | [value] => some (some value)
  | _ => none

/-- A field with a value of its own when it is missing. -/
def fieldOr {α : Type} (fields : List (String × Json)) (name : String) (default : α)
    (decode : Json → Option α) : Option α := do
  match ← optionalField? fields name with
  | none => some default
  | some value => decode value

/-- A field that may be missing or null. -/
def nullableField? {α : Type} (fields : List (String × Json)) (name : String)
    (decode : Json → Option α) : Option (Option α) := do
  match ← optionalField? fields name with
  | none | some .null => some none
  | some value => (decode value).map some

theorem sizeOf_lt_of_mem_valuesOf {name : String} {value : Json} :
    ∀ {fields : List (String × Json)}, value ∈ valuesOf name fields → sizeOf value < sizeOf fields
  | [], h => by simp [valuesOf] at h
  | (key, first) :: rest, h => by
    simp only [valuesOf] at h
    split at h
    · rcases List.mem_cons.1 h with rfl | h
      · simp only [List.cons.sizeOf_spec, Prod.mk.sizeOf_spec]; omega
      · have := sizeOf_lt_of_mem_valuesOf h
        simp only [List.cons.sizeOf_spec]; omega
    · have := sizeOf_lt_of_mem_valuesOf h
      simp only [List.cons.sizeOf_spec]; omega

theorem sizeOf_field? {fields : List (String × Json)} {name : String} {value : Json}
    (h : field? fields name = some value) : sizeOf value < sizeOf fields := by
  unfold field? at h
  split at h
  · next heq =>
    refine @sizeOf_lt_of_mem_valuesOf name _ _ ?_
    simp_all
  · simp at h

/-! ## Writing -/

/-- How one character is written in a JSON text. -/
def writtenChar (c : Char) : String :=
  match c with
  | '"' => "\\\""
  | '\\' => "\\\\"
  | '\n' => "\\n"
  | '\r' => "\\r"
  | '\t' => "\\t"
  | c =>
    if c.toNat < 0x20 then
      let digits := Text.hexadecimal c.toNat
      "\\u" ++ Binary64.zeros (4 - digits.length) ++ digits
    else String.singleton c

def writtenText (s : String) : String :=
  "\"" ++ String.join (s.toList.map writtenChar) ++ "\""

/-- Numbers that are not finite have no JSON form and are written as `null`. -/
def writtenReal (x : Binary64) : String := if x.isFinite then x.format .data else "null"

mutual

/-- The compact text of a value. -/
def written : Json → String
  | .null | .unreadable => "null"
  | .bool b => toString b
  | .int i => toString i
  | .real x => writtenReal x
  | .text s => writtenText s
  | .array items => "[" ++ ",".intercalate (writtenItems items) ++ "]"
  | .object fields => "\x7b" ++ ",".intercalate (writtenFields fields) ++ "\x7d"

def writtenItems : List Json → List String
  | [] => []
  | item :: rest => written item :: writtenItems rest

def writtenFields : List (String × Json) → List String
  | [] => []
  | field :: rest => writtenField field :: writtenFields rest

def writtenField : String × Json → String
  | (name, value) => writtenText name ++ ":" ++ written value

end

end Json

end Regression
