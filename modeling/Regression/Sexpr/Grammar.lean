import Regression.Sexpr.Basic

/-!
# Sorts, terms and commands

Which bracketed expressions are sorts, terms and commands of the solver language. Of the commands
only the definition of a constant has a meaning here: `Sexpr.command?` tells the name and the value
that it defines.
-/

namespace Regression

namespace Sexpr

def isSymbol : Sexpr → Bool
  | .atom (.symbol _) => true
  | _ => false

def isNumeral : Sexpr → Bool
  | .atom (.numeral _) => true
  | _ => false

/-- Constants of the language. -/
def isConstant : Sexpr → Bool
  | .atom (.numeral _) | .atom (.decimal ..) | .atom (.hexadecimal _) | .atom (.binary _)
  | .atom (.string _) => true
  | _ => false

/-- A symbol, or one with indices. -/
def isIdentifier : Sexpr → Bool
  | .atom (.symbol _) => true
  | .list (.atom (.reserved "_") :: name :: indices) =>
    name.isSymbol && !indices.isEmpty && indices.all fun i => i.isNumeral || i.isSymbol
  | _ => false

mutual

def isSort : Sexpr → Bool
  | .atom (.symbol _) => true
  | .list (.atom (.reserved w) :: args) => isIdentifier (.list (.atom (.reserved w) :: args))
  | .list (head :: args) => isIdentifier head && !args.isEmpty && areSorts args
  | _ => false

def areSorts : List Sexpr → Bool
  | [] => true
  | s :: rest => isSort s && areSorts rest

end

/-- A variable with its sort. -/
def isSortedVariable : Sexpr → Bool
  | .list [name, sort] => name.isSymbol && sort.isSort
  | _ => false

/-- An identifier, or one with a sort. -/
def isQualified : Sexpr → Bool
  | .list [.atom (.reserved "as"), name, sort] => name.isIdentifier && sort.isSort
  | e => e.isIdentifier

mutual

/-- A value of an attribute inside a list: constants, symbols, keywords and lists of them. -/
def isPlain : Sexpr → Bool
  | .atom (.reserved _) => false
  | .atom _ => true
  | .list items => arePlain items

def arePlain : List Sexpr → Bool
  | [] => true
  | e :: rest => isPlain e && arePlain rest

end

/-- A value that may follow the keyword of an attribute. -/
def isAttributeValue (e : Sexpr) : Bool := e.isPlain && !e.isKeyword

/-- Keywords, each with a value or without one. -/
def areAttributes : List Sexpr → Bool
  | [] => true
  | [key] => key.isKeyword
  | key :: value :: rest =>
    key.isKeyword &&
      (if value.isKeyword then areAttributes (value :: rest)
      else value.isAttributeValue && areAttributes rest)

/-- A constructor, or one with names for its arguments. -/
def isPattern : Sexpr → Bool
  | .atom (.symbol _) => true
  | .list (name :: args) => name.isSymbol && args.all isSymbol
  | _ => false

mutual

def isTerm : Sexpr → Bool
  | .atom a => isConstant (.atom a) || isSymbol (.atom a)
  | .list [] => false
  | .list (.atom (.reserved "let") :: rest) =>
    match rest with
    | [.list bindings, body] => !bindings.isEmpty && areBindings bindings && isTerm body
    | _ => false
  | .list (.atom (.reserved "forall") :: rest) =>
    match rest with
    | [.list vars, body] => !vars.isEmpty && vars.all isSortedVariable && isTerm body
    | _ => false
  | .list (.atom (.reserved "exists") :: rest) =>
    match rest with
    | [.list vars, body] => !vars.isEmpty && vars.all isSortedVariable && isTerm body
    | _ => false
  | .list (.atom (.reserved "match") :: rest) =>
    match rest with
    | [subject, .list cases] => isTerm subject && !cases.isEmpty && areCases cases
    | _ => false
  | .list (.atom (.reserved "!") :: rest) =>
    match rest with
    | body :: attributes => isTerm body && !attributes.isEmpty && areAttributes attributes
    | [] => false
  | .list (.atom (.reserved w) :: rest) => isQualified (.list (.atom (.reserved w) :: rest))
  | .list (head :: args) => isQualified head && !args.isEmpty && areTerms args
termination_by e => sizeOf e

def areTerms : List Sexpr → Bool
  | [] => true
  | e :: rest => isTerm e && areTerms rest
termination_by es => sizeOf es

/-- Names bound to terms. -/
def areBindings : List Sexpr → Bool
  | [] => true
  | .list [name, value] :: rest => name.isSymbol && isTerm value && areBindings rest
  | _ :: _ => false
termination_by es => sizeOf es

/-- Patterns with the terms to take. -/
def areCases : List Sexpr → Bool
  | [] => true
  | .list [pattern, body] :: rest => pattern.isPattern && isTerm body && areCases rest
  | _ :: _ => false
termination_by es => sizeOf es

end

/-! ## Commands -/

/-- A constructor of a datatype with its selectors. -/
def isConstructor : Sexpr → Bool
  | .list (name :: selectors) => name.isSymbol && selectors.all isSortedVariable
  | _ => false

def areConstructors : Sexpr → Bool
  | .list constructors => !constructors.isEmpty && constructors.all isConstructor
  | _ => false

/-- The constructors of a datatype, which may have parameters. -/
def isDatatype : Sexpr → Bool
  | .list [.atom (.reserved "par"), .list params, constructors] =>
    !params.isEmpty && params.all isSymbol && areConstructors constructors
  | e => areConstructors e

/-- A datatype's name and number of parameters. -/
def isDatatypeName : Sexpr → Bool
  | .list [name, arity] => name.isSymbol && arity.isNumeral
  | _ => false

/-- The name, parameters and sort of a function. -/
def isFunctionHead : List Sexpr → Bool
  | [name, .list params, sort] => name.isSymbol && params.all isSortedVariable && sort.isSort
  | _ => false

/-- The heads of several functions, one after another without brackets. -/
def areFunctionHeads : List Sexpr → Bool
  | [] => true
  | name :: params :: sort :: rest => isFunctionHead [name, params, sort] && areFunctionHeads rest
  | _ => false

/-- A symbol or its negation. -/
def isLiteral : Sexpr → Bool
  | .atom (.symbol _) => true
  | .list [.atom (.symbol "not"), name] => name.isSymbol
  | _ => false

/-- Whether a command may have some arguments. -/
def isCommand (name : String) (args : List Sexpr) : Bool :=
  match name, args with
  | "assert", [t] => t.isTerm
  | "check-sat", [] => true
  | "check-sat-assuming", [.list literals] => literals.all isLiteral
  | "declare-const", [x, sort] => x.isSymbol && sort.isSort
  | "declare-datatype", [x, type] => x.isSymbol && type.isDatatype
  | "declare-datatypes", [.list names, .list types] =>
    !names.isEmpty && names.all isDatatypeName && types.all isDatatype &&
      names.length == types.length
  | "declare-fun", [f, .list params, sort] => f.isSymbol && areSorts params && sort.isSort
  | "declare-sort", [x, arity] => x.isSymbol && arity.isNumeral
  | "define-fun", [f, params, sort, value]
  | "define-fun-rec", [f, params, sort, value] =>
    isFunctionHead [f, params, sort] && value.isTerm
  | "define-funs-rec", [.list heads, .list values] =>
    !values.isEmpty && areTerms values && areFunctionHeads heads &&
      heads.length == 3 * values.length
  | "define-sort", [x, .list params, sort] => x.isSymbol && params.all isSymbol && sort.isSort
  | "echo", [.atom (.string _)] => true
  | "exit", [] | "get-assertions", [] | "get-assignment", [] | "get-model", [] | "get-proof", []
  | "get-unsat-assumptions", [] | "get-unsat-core", [] | "reset", [] | "reset-assertions", [] =>
    true
  | "get-info", [key] | "get-option", [key] => key.isKeyword
  | "get-value", terms => !terms.isEmpty && areTerms terms
  | "pop", [n] | "push", [n] => n.isNumeral
  | "set-info", [key] | "set-option", [key] => key.isKeyword
  | "set-info", [key, value] | "set-option", [key, value] =>
    key.isKeyword && value.isAttributeValue
  | "set-logic", [x] => x.isSymbol
  | _, _ => false

/-- The constant that a command defines, with the text of its value; `none` for a command that
defines none. -/
def definition? (name : String) (args : List Sexpr) : Option (String × String) :=
  match name, args with
  | "define-fun", [.atom (.symbol x), .list [], _, value] => some (x, value.text)
  | _, _ => none

/-- What a command defines; fails when the expression is no command. -/
def command? : Sexpr → Option (Option (String × String))
  | .list (.atom (.reserved name) :: args) =>
    if isCommand name args then some (definition? name args) else none
  | _ => none

end Sexpr

end Regression
