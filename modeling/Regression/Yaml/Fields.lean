import Regression.Yaml.Number

/-!
# Mappings with known names

A mapping with a fixed set of names is read entry by entry; what is not there has a default. Other
names and repeated ones are refused. Aliases are followed wherever a node is looked at.
-/

namespace Regression.Yaml

/-- The entries of a mapping by their names, which are all different. -/
structure Fields where
  document : Document
  entries : List (String × Node)

namespace Fields

/-- The name that a key stands for, if it is one of the given names. -/
def name? (d : Document) (names : List String) (key : Node) : Option String := do
  match ← d.resolve? key with
  | .scalar s => if names.contains s.text then some s.text else none
  | _ => none

/-- The entries of a mapping with some of the given names. Nothing at all counts as a mapping
without entries. -/
def ofNode? (d : Document) (names : List String) (n : Node) : Option Fields := do
  match ← d.resolve? n with
  | .mapping entries =>
    let entries ← entries.mapM fun (key, value) => do return (← name? d names key, value)
    if (entries.map (·.1)).Nodup then some ⟨d, entries⟩ else none
  | .scalar s => if s.isEmpty then some ⟨d, []⟩ else none
  | .alias _ => none

def has (f : Fields) (name : String) : Bool := f.entries.any (·.1 = name)

/-- The value of an entry, or its default. -/
def getOr {α : Type} (f : Fields) (name : String) (default : α) (read : Node → Option α) :
    Option α :=
  match f.entries.find? (·.1 = name) with
  | none => some default
  | some (_, n) => read n

/-- The value of an entry that is a scalar. -/
def scalarOr {α : Type} (f : Fields) (name : String) (default : α)
    (read : Scalar → Option α) : Option α :=
  f.getOr name default fun n => do
    match ← f.document.resolve? n with
    | .scalar s => read s
    | _ => none

/-- The value of an entry that is a mapping itself. Null stands for the default only where that is
said. -/
def groupOr {α : Type} (f : Fields) (name : String) (default : α) (isOptional : Bool)
    (names : List String) (read : Fields → Option α) : Option α :=
  f.getOr name default fun n => do
    let isNull ← match ← f.document.resolve? n with
      | .scalar s => if isOptional then s.isNull? else some false
      | _ => some false
    if isNull then some default else read (← ofNode? f.document names n)

/-- A natural number below a limit. -/
def naturalOr (f : Fields) (name : String) (limit default : Nat) : Option Nat :=
  f.scalarOr name default fun s => s.natural?.filter (· < limit)

def uint32Or (f : Fields) (name : String) (default : UInt32) : Option UInt32 :=
  (f.naturalOr name UInt32.size default.toNat).map .ofNat

def uint64Or (f : Fields) (name : String) (default : UInt64) : Option UInt64 :=
  (f.naturalOr name UInt64.size default.toNat).map .ofNat

def int64Or (f : Fields) (name : String) (default : Int64) : Option Int64 :=
  f.scalarOr name default fun s =>
    (s.integer?.filter fun i => Int64.minValue.toInt ≤ i && i ≤ Int64.maxValue.toInt).map .ofInt

def realOr (f : Fields) (name : String) (default : Binary64) : Option Binary64 :=
  f.scalarOr name default Scalar.real?

def textOr (f : Fields) (name : String) (default : String) : Option String :=
  f.scalarOr name default fun s => some s.text

end Fields

end Regression.Yaml
