import Regression.Sexpr.Token

/-!
# Bracketed expressions

The tree of lists that a sequence of tokens describes, and its text with single blanks.
-/

namespace Regression

inductive Sexpr where
  | atom (a : Sexpr.Atom)
  | list (items : List Sexpr)
  deriving Repr, Inhabited

namespace Sexpr

/-! ## Reading -/

/-- What has been read: the complete expressions of every list that is still open, the innermost
first and each in reverse order, and last those outside of all lists. -/
structure Reading where
  current : List Sexpr
  outer : List (List Sexpr)

def Reading.step? (r : Reading) : Token → Option Reading
  | .opening => some ⟨[], r.current :: r.outer⟩
  | .atom a => some ⟨.atom a :: r.current, r.outer⟩
  | .closing =>
    match r.outer with
    | [] => none
    | next :: outer => some ⟨.list r.current.reverse :: next, outer⟩

/-- The expressions that tokens describe; every bracket must have its partner. -/
def ofTokens? (tokens : List Token) : Option (List Sexpr) := do
  let r ← tokens.foldlM Reading.step? ⟨[], []⟩
  if r.outer.isEmpty then some r.current.reverse else none

/-! ## Writing -/

/-- Whether an expression is a keyword, which may open an attribute. -/
def isKeyword : Sexpr → Bool
  | .atom (.keyword _) => true
  | _ => false

mutual

/-- The text with single blanks. In the cases of a `match`, a constructor without arguments is
written without brackets. -/
def text : Sexpr → String
  | .atom a => a.text
  | .list [.atom (.reserved "match"), subject, .list cases] =>
    "(match " ++ text subject ++ " (" ++ " ".intercalate (caseTexts cases) ++ "))"
  | .list items => "(" ++ " ".intercalate (texts items) ++ ")"

def texts : List Sexpr → List String
  | [] => []
  | item :: rest => text item :: texts rest

def caseTexts : List Sexpr → List String
  | [] => []
  | .list [.list [constructor], body] :: rest =>
    ("(" ++ text constructor ++ " " ++ text body ++ ")") :: caseTexts rest
  | other :: rest => text other :: caseTexts rest

end

end Sexpr

end Regression
