import Regression.Proofs.Expr.Nodes
import Regression.Proofs.Number.ReadBack
import Regression.Script.Basic
import Regression.Sexpr.Basic

/-!
# What a script is to say

The bracketed expressions that a script for some conditions consists of, told from the conditions
alone. A name or a string is a single token in them. An expression has the shape of its tree: the
word of each node stands in front of the images of its operands.

* `Expr.image`: the image of an expression.
* `Expr.KeepsReals`: the decimals in it stand for the reals of the expression.
* `Script.Declarations.images`: the declaring commands.
* `Script.images`: all commands of a script.
-/

namespace Regression

namespace Sexpr

def word (w : String) : Sexpr := .atom (wordAtom w)

/-- A list that starts with a word. -/
def apply (head : String) (args : List Sexpr) : Sexpr := .list (word head :: args)

end Sexpr

/-! ## Names and constants -/

/-- A name is one token: a word, or any other text between bars. -/
def Script.nameImage (name : String) : Sexpr :=
  if isPlainSymbol name then .word name else .atom (.symbol name)

/-- A string is one token; what is not printable stands in it by its code point. -/
def Script.stringImage (s : String) : Sexpr :=
  .atom (.string (s.toList.flatMap fun c =>
    if ' ' ≤ c ∧ c ≤ '~' then [c] else (Text.codePoint c).toList))

/-- A negative number is a negated positive one. -/
def Script.signedImage (isNegative : Bool) (size : Sexpr.Atom) : Sexpr :=
  if isNegative then .apply "-" [.atom size] else .atom size

namespace Constant

def image : Constant → Sexpr
  | .int v => Script.signedImage (v.toInt < 0) (.numeral v.toInt.natAbs)
  | .real v =>
    Script.signedImage (v.isNegative && !v.isZero)
      (.decimal v.abs.decimalParts.1 v.abs.decimalParts.2)
  | .bool v => .word (if v then "true" else "false")
  | .string v => Script.stringImage v

end Constant

/-! ## Operators -/

namespace Operator

/-- How the nodes of an operator are written: with a word, under a negation or not, and with the
operands in their order or the other way round. -/
structure Form where
  word : String
  isNegated : Bool := false
  isSwapped : Bool := false

/-- The form of an operator, whose operands are combined as reals or not. -/
def form (op : Operator) (isReal : Bool) : Form :=
  match op with
  | .eq | .equals => { word := "=" }
  | .ne | .notEquals => { word := "=", isNegated := true }
  | .lt => { word := "<" }
  | .le => { word := "<=" }
  | .gt => { word := ">" }
  | .ge => { word := ">=" }
  | .add => { word := "+" }
  | .sub => { word := "-" }
  | .mul => { word := "*" }
  | .div => { word := if isReal then "/" else "div" }
  | .pow => { word := "pow" }
  | .mod => { word := "mod" }
  | .and => { word := "and" }
  | .or => { word := "or" }
  | .xor => { word := "xor" }
  | .startsWith => { word := "str.prefixof", isSwapped := true }
  | .notStartsWith => { word := "str.prefixof", isNegated := true, isSwapped := true }
  | .endsWith => { word := "str.suffixof", isSwapped := true }
  | .notEndsWith => { word := "str.suffixof", isNegated := true, isSwapped := true }
  | .contains => { word := "str.contains" }
  | .notContains => { word := "str.contains", isNegated := true }

/-- The image of a node over the images of its operands. -/
def Form.image (f : Form) (l r : Sexpr) : Sexpr :=
  let node := Sexpr.apply f.word (if f.isSwapped then [r, l] else [l, r])
  if f.isNegated then .apply "not" [node] else node

end Operator

/-! ## Expressions -/

namespace Expr

def hasSort (e : Expr) (s : ValueSort) : Bool :=
  match e.sort? with
  | .ok t => t = s
  | .error _ => false

/-- Whether the operands of a binary node are combined as reals. -/
def isReal (op : Operator) (l r : Expr) : Bool := op = .pow || l.hasSort .real || r.hasSort .real

/-- An integer is lifted where a real is wanted, and nothing else is. -/
def lifted (e : Expr) (isReal : Bool) (image : Sexpr) : Sexpr :=
  if isReal && e.hasSort .int then .apply "to_real" [image] else image

mutual

/-- The tree that an expression stands for in a script. -/
def image : Expr → Sexpr
  | .const v => v.image
  | .var x _ => Script.nameImage x
  | .binary op l r _ =>
    (op.form (isReal op l r)).image (l.lifted (isReal op l r) (image l))
      (r.lifted (isReal op l r) (image r))
  | .uif f _ [] => Script.nameImage f
  | .uif f _ (e :: es) => .list (Script.nameImage f :: image e :: images es)
  | .math f args => .apply f.name (realImages args)

def images : List Expr → List Sexpr
  | [] => []
  | e :: es => image e :: images es

/-- The images of arguments that have to be reals. -/
def realImages : List Expr → List Sexpr
  | [] => []
  | e :: es => e.lifted true (image e) :: realImages es

end

/-- Every real in an expression is finite, and the decimal in its image reads back as it. -/
def KeepsReals (e : Expr) : Prop :=
  ∀ v, (Expr.const (.real v)).Occurs e → ∃ whole fraction,
    (Constant.real v).image =
      Script.signedImage (v.isNegative && !v.isZero) (.decimal whole fraction) ∧
      v.isFinite ∧ v.abs.ReadsBack (Binary64.decimalValue whole fraction)

end Expr

/-! ## Commands -/

/-- The command that introduces a function. -/
def MathFunction.declarationImage? : MathFunction → Option Sexpr
  | .pow => some (.apply "define-fun" [.word "pow",
      .list [.list [.word "a", .word "Real"], .list [.word "b", .word "Real"]], .word "Real",
      .apply "^" [.word "a", .word "b"]])
  | .sqrt => some (.apply "define-fun" [.word "sqrt", .list [.list [.word "x", .word "Real"]],
      .word "Real", .apply "^" [.word "x", .atom (.decimal ['0'] ['5'])]])
  | .exp => some (.apply "define-fun" [.word "exp", .list [.list [.word "x", .word "Real"]],
      .word "Real",
      .apply "^" [.atom (.decimal ['2'] "718281828459045".toList), .word "x"]])
  | .log => some (.apply "declare-fun" [.word "log", .list [.word "Real"], .word "Real"])
  | _ => none

namespace Script

/-- The command that introduces a name. -/
def declarationImage (name : String) (signature : Signature) : Sexpr :=
  .apply "declare-fun" [nameImage name, .list (signature.params.map fun s => .word s.scriptName),
    .word signature.result.scriptName]

/-- The functions in their order, and then the names. -/
def Declarations.images (d : Declarations) : List Sexpr :=
  (MathFunction.all.filter (· ∈ d.functions)).filterMap MathFunction.declarationImage? ++
    d.names.map fun (name, signature) => declarationImage name signature

/-- What some conditions use. -/
def Declarations.ofConditions (conditions : List Expr) : Declarations :=
  (Declarations.empty.useAll (conditions.flatMap Expr.uses)).1

/-- The commands of the script for some conditions: one assertion for each of them, in order. -/
def images (conditions : List Expr) (timeoutMs : UInt64) : List Sexpr :=
  [.apply "set-option" [.atom (.keyword "produce-models"), .word "true"],
    .apply "set-option" [.atom (.keyword "timeout"), .atom (.numeral timeoutMs.toNat)],
    .apply "set-logic" [.word "ALL"]] ++
    (Declarations.ofConditions conditions).images ++
    conditions.map (fun e => .apply "assert" [e.image]) ++
    [.apply "check-sat" [], .apply "get-model" [], .apply "exit" []]

end Script

end Regression
