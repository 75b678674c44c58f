import Regression.Malformed

/-!
# Symbols of scripts

A name is a symbol as it stands when it is made of letters, digits and certain marks, does not
start with a digit and is not one of the words the scripts use themselves. Any other name is put
between bars, which no name that contains a bar or a backslash survives; the empty name has no
form either.
-/

namespace Regression

namespace Script

/-- Letters and the marks that a plain symbol may contain. -/
def isSymbolStart (c : Char) : Bool :=
  ('a' ≤ c && c ≤ 'z') || ('A' ≤ c && c ≤ 'Z') || "~!@$%^&*_+=<>.?/-".toList.contains c

def isSymbolChar (c : Char) : Bool := isSymbolStart c || ('0' ≤ c && c ≤ '9')

/-- Words with a meaning of their own in scripts. -/
def reservedWords : List String :=
  ["and", "or", "not", "xor", "ite", "div", "mod", "abs", "true", "false", "let", "forall",
    "exists", "par", "as", "to_real", "to_int"]

def isPlainSymbol (name : String) : Bool :=
  match name.toList with
  | [] => false
  | c :: cs => isSymbolStart c && cs.all isSymbolChar && !reservedWords.contains name

/-- Whether a name can stand between bars. -/
def isQuotable (name : String) : Bool :=
  !name.isEmpty && name.toList.all fun c => c != '|' && c != '\\'

/-- A name with a form in scripts. -/
structure Symbol where
  name : String
  writable : isPlainSymbol name || isQuotable name
  deriving DecidableEq

namespace Symbol

def ofName (name : String) : Except Malformed Symbol :=
  if h : isPlainSymbol name || isQuotable name then .ok ⟨name, h⟩ else .error (.badSymbol name)

def text (s : Symbol) : String := if isPlainSymbol s.name then s.name else "|" ++ s.name ++ "|"

end Symbol

end Script

end Regression
