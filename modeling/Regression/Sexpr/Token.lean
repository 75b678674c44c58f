import Regression.Script.Symbol

/-!
# Tokens of the solver language

Solvers write their models as commands of the language in which they read scripts. This is its
lexical level: brackets, numerals, decimals, binary and hexadecimal words, strings, keywords,
symbols and reserved words.

A character that starts no token ends the text; what follows it is not read.
-/

namespace Regression

namespace Sexpr

/-- A token other than a bracket. -/
inductive Atom where
  | numeral (n : Nat)
  /-- The digits in front of the point and behind it. -/
  | decimal (whole fraction : List Char)
  | hexadecimal (digits : List Char)
  | binary (digits : List Char)
  | string (value : List Char)
  | keyword (name : String)
  | symbol (name : String)
  | reserved (word : String)
  deriving DecidableEq, Repr, Inhabited

inductive Token where
  | opening
  | closing
  | atom (a : Atom)
  deriving DecidableEq, Repr, Inhabited

/-- The names of the commands; they are symbols only between bars. -/
def commandNames : List String :=
  ["assert", "check-sat", "check-sat-assuming", "declare-const", "declare-datatype",
    "declare-datatypes", "declare-fun", "declare-sort", "define-fun", "define-fun-rec",
    "define-funs-rec", "define-sort", "echo", "exit", "get-assertions", "get-assignment",
    "get-info", "get-model", "get-option", "get-proof", "get-unsat-assumptions", "get-unsat-core",
    "get-value", "pop", "push", "reset", "reset-assertions", "set-info", "set-logic",
    "set-option"]

def reservedWords : List String :=
  ["_", "!", "as", "let", "exists", "forall", "match", "par"] ++ commandNames

def isSpace (c : Char) : Bool := c == ' ' || c == '\t' || c == '\n' || c == '\r'

/-- Pass over white space and comments, which run from `;` to the end of the line. -/
def skipSpace : Bool → List Char → List Char
  | _, [] => []
  | true, c :: rest => skipSpace (c != '\n') rest
  | false, c :: rest =>
    if isSpace c then skipSpace false rest
    else if c = ';' then skipSpace true rest
    else c :: rest

/-- The text up to a closing bar, and what follows it. -/
def barred? : List Char → Option (List Char × List Char)
  | [] => none
  | '|' :: rest => some ([], rest)
  | c :: rest => (barred? rest).map fun (cs, rest) => (c :: cs, rest)

/-- The text up to a closing quotation mark, and what follows it; a doubled mark is a mark of the
text. -/
def stringBody? : List Char → Option (List Char × List Char)
  | [] => none
  | '"' :: '"' :: rest => (stringBody? rest).map fun (cs, rest) => ('"' :: cs, rest)
  | '"' :: rest => some ([], rest)
  | c :: rest => (stringBody? rest).map fun (cs, rest) => (c :: cs, rest)

def isHexDigit (c : Char) : Bool :=
  Binary64.isDigit c || ('a' ≤ c && c ≤ 'f') || ('A' ≤ c && c ≤ 'F')

def isBinaryDigit (c : Char) : Bool := c == '0' || c == '1'

/-- At least one digit of a kind, and what follows. -/
def digits? (isDigit : Char → Bool) (cs : List Char) : Option (List Char × List Char) :=
  let digits := cs.takeWhile isDigit
  if digits.isEmpty then none else some (digits, cs.dropWhile isDigit)

/-- A numeral or decimal; only the number zero starts with the digit zero. -/
def number? (cs : List Char) : Option (Atom × List Char) := do
  let (whole, rest) ← digits? Binary64.isDigit cs
  if whole.head? == some '0' && 1 < whole.length then none
  else
    match rest with
    | '.' :: rest =>
      let (fraction, rest) ← digits? Binary64.isDigit rest
      return (.decimal whole fraction, rest)
    | rest => return (.numeral (Binary64.digitsValue whole), rest)

/-- A word as it stands: reserved, or a symbol. -/
def wordAtom (name : String) : Atom :=
  if reservedWords.contains name then .reserved name else .symbol name

/-- The token at the start of a text that starts with no white space, and the rest. -/
def token? : List Char → Option (Token × List Char)
  | [] => none
  | '(' :: rest => some (.opening, rest)
  | ')' :: rest => some (.closing, rest)
  | '|' :: rest =>
    (barred? rest).map fun (cs, rest) => (.atom (.symbol (String.ofList cs)), rest)
  | '"' :: rest => (stringBody? rest).map fun (cs, rest) => (.atom (.string cs), rest)
  | '#' :: 'b' :: rest =>
    (digits? isBinaryDigit rest).map fun (ds, rest) => (.atom (.binary ds), rest)
  | '#' :: 'x' :: rest =>
    (digits? isHexDigit rest).map fun (ds, rest) =>
      (.atom (.hexadecimal (ds.map Char.toLower)), rest)
  | ':' :: rest =>
    some (.atom (.keyword (String.ofList (rest.takeWhile Script.isSymbolChar))),
      rest.dropWhile Script.isSymbolChar)
  | c :: rest =>
    if Binary64.isDigit c then (number? (c :: rest)).map fun (a, rest) => (.atom a, rest)
    else if Script.isSymbolStart c then
      some (.atom (wordAtom (String.ofList (c :: rest.takeWhile Script.isSymbolChar))),
        rest.dropWhile Script.isSymbolChar)
    else none

/-- At most `bound` tokens of a text. -/
def tokensWithin : Nat → List Char → List Token
  | 0, _ => []
  | bound + 1, cs =>
    match token? (skipSpace false cs) with
    | some (token, rest) => token :: tokensWithin bound rest
    | none => []

/-- The tokens of a text up to the first character that starts none. Every token takes a
character. -/
def tokens (cs : List Char) : List Token := tokensWithin cs.length cs

/-! ## Written tokens -/

/-- The fraction of a decimal as it is written: the number its digits form without zeros at the
end. Zeros in front of it are lost. -/
def fractionText (fraction : List Char) : String :=
  toString (Binary64.dropZeros (Binary64.digitsValue fraction)).1

/-- A symbol is written between bars unless its characters allow it as it stands. -/
def symbolText (name : String) : String :=
  match name.toList with
  | [] => "||"
  | c :: cs =>
    if Script.isSymbolStart c && cs.all Script.isSymbolChar then name else "|" ++ name ++ "|"

def Atom.text : Atom → String
  | .numeral n => toString n
  | .decimal whole fraction => String.ofList whole ++ "." ++ fractionText fraction
  | .hexadecimal ds => "#x" ++ String.ofList ds
  | .binary ds => "#b" ++ String.ofList ds
  | .string cs =>
    "\"" ++ String.join (cs.map fun c => if c = '"' then "\"\"" else String.singleton c) ++ "\""
  | .keyword name => ":" ++ name
  | .symbol name => symbolText name
  | .reserved word => word

end Sexpr

end Regression
