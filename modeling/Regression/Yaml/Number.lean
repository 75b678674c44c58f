import Regression.Number.Notation
import Regression.Yaml.Node

/-!
# Scalars that are not texts

Null, the truth values and numbers have spellings of their own. Whole numbers are decimal, or have
one of the prefixes `0x`, `0o` and `0b`; a decimal number does not start with the digit zero. Only a
plain scalar is a number, or a block whose tag says so.
-/

namespace Regression.Yaml

def isNullWord (s : String) : Bool := ["null", "Null", "NULL", "~"].contains s

def isTruthWord (s : String) : Bool :=
  ["true", "True", "TRUE", "false", "False", "FALSE"].contains s

/-- Digits that start with a superfluous zero. -/
def hasLeadingZero (cs : List Char) : Bool :=
  1 < cs.length && cs.head? == some '0' && cs.all Char.isDigit

/-- A whole number without its sign. -/
def unsigned? : List Char → Option Nat
  | '0' :: 'x' :: digits => Text.natural? 16 digits
  | '0' :: 'o' :: digits => Text.natural? 8 digits
  | '0' :: 'b' :: digits => Text.natural? 2 digits
  | digits => if hasLeadingZero digits then none else Text.natural? 10 digits

/-- A natural number may have a plus sign. -/
def natural? : List Char → Option Nat
  | '+' :: cs => unsigned? cs
  | cs => unsigned? cs

def integer? : List Char → Option Int
  | '-' :: cs => (unsigned? cs).map fun n => -(n : Int)
  | cs => (natural? cs).map Int.ofNat

def isInfinityWord (s : String) : Bool := [".inf", ".Inf", ".INF"].contains s

def isNaNWord (s : String) : Bool := [".nan", ".NaN", ".NAN"].contains s

/-- A finite decimal number, or one of the words for the others. -/
def real? (s : String) : Option Binary64 :=
  let (positive, isSigned) := match s.toList with
    | '+' :: cs => (cs, cs.head?.any fun c => c == '+' || c == '-')
    | cs => (cs, false)
  if isSigned then none
  else if isInfinityWord (String.ofList positive) then some (.infinity false)
  else if s.toList.head? == some '-' && isInfinityWord (String.ofList s.toList.tail) then
    some (.infinity true)
  else if isNaNWord s then some .nan
  else (Binary64.read? (String.ofList positive)).filter (·.isFinite)

/-- The words for finite and other numbers in documents. -/
def realText (x : Binary64) : String :=
  if x.isNaN then ".nan"
  else if x.isInfinite then if x.isNegative then "-.inf" else ".inf"
  else x.format .data

namespace Scalar

def isPlain (s : Scalar) : Bool := s.style = .plain

/-- A plain scalar without text. -/
def isEmpty (s : Scalar) : Bool := s.isPlain && s.text.isEmpty

/-- Whether a scalar is null: as a word, or as nothing at all. The tag of null goes with the word
only. -/
def isNull? (s : Scalar) : Option Bool :=
  if !s.isPlain then some false
  else
    match s.tag with
    | none => some (s.text.isEmpty || isNullWord s.text)
    | some "tag:yaml.org,2002:null" => if isNullWord s.text then some true else none
    | some _ => some false

/-- A scalar that may be a number of the kind that a tag names. -/
def mayBe (s : Scalar) (tag : String) : Bool :=
  s.isPlain || (s.style = .literal && s.tag = some tag)

def natural? (s : Scalar) : Option Nat :=
  if s.mayBe "tag:yaml.org,2002:int" then Yaml.natural? s.text.toList else none

def integer? (s : Scalar) : Option Int :=
  if s.mayBe "tag:yaml.org,2002:int" then Yaml.integer? s.text.toList else none

def real? (s : Scalar) : Option Binary64 :=
  if s.mayBe "tag:yaml.org,2002:float" then Yaml.real? s.text else none

/-- The text of a scalar as a name. A tag with an exclamation mark in front is a name as well, of a
scalar that is empty or null. -/
def name? (s : Scalar) : Option String :=
  match s.tag.map String.toList with
  | some ('!' :: name) =>
    if s.isPlain && (s.text.isEmpty || isNullWord s.text) then some (String.ofList name) else none
  | _ => some s.text

end Scalar

end Regression.Yaml
