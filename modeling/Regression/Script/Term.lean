import Regression.Script.Symbol
import Regression.Text.Quoted

/-!
# Terms of scripts

A term is a tree of lists over single tokens. Words are the operators, sorts and commands of the
script language itself; symbols are names from expressions, which are quoted where necessary.
-/

namespace Regression

namespace Script

inductive Term where
  | word (text : String)
  | symbol (symbol : Symbol)
  | numeral (n : Nat)
  /-- A number that is finite and not negative. -/
  | decimal (value : Binary64)
  | string (value : String)
  | list (items : List Term)

namespace Term

/-- A list that starts with a word. -/
def apply (head : String) (args : List Term) : Term := .list (.word head :: args)

/-- A decimal always has a point. -/
def decimalText (x : Binary64) : String :=
  let text := x.format .plain
  if text.toList.contains '.' then text else text ++ ".0"

/-- In a string constant a quotation mark is doubled, and a character that is not printable ASCII
is given by its code point. -/
def stringChar (c : Char) : String :=
  if c = '"' then "\"\""
  else if ' ' ≤ c ∧ c ≤ '~' then String.singleton c
  else Text.codePoint c

def stringText (s : String) : String :=
  "\"" ++ String.join (s.toList.map stringChar) ++ "\""

mutual

def text : Term → String
  | .word w => w
  | .symbol s => s.text
  | .numeral n => toString n
  | .decimal x => decimalText x
  | .string s => stringText s
  | .list items => "(" ++ " ".intercalate (texts items) ++ ")"

def texts : List Term → List String
  | [] => []
  | t :: ts => text t :: texts ts

end

end Term

end Script

end Regression
