/-!
# Searching a text for a pattern

Occurrences of a nonempty pattern are found from the left and do not overlap.
-/

namespace Regression.Text

/-- What follows `pattern` at the start of a text. -/
def dropPattern? : List Char → List Char → Option (List Char)
  | [], rest => some rest
  | _ :: _, [] => none
  | p :: pattern, c :: rest => if p = c then dropPattern? pattern rest else none

/-- The text before the first occurrence of `pattern`, and the text after it. -/
def splitFirst? (pattern : List Char) : List Char → Option (List Char × List Char)
  | [] => if pattern.isEmpty then some ([], []) else none
  | c :: rest =>
    match dropPattern? pattern (c :: rest) with
    | some after => some ([], after)
    | none => (splitFirst? pattern rest).map fun (before, after) => (c :: before, after)

/-- Whether `pattern` occurs in a text. -/
def occursIn (pattern text : String) : Bool :=
  (splitFirst? pattern.toList text.toList).isSome

/-- One left-to-right pass: `skip` characters of an occurrence are still to be passed over, and
the pieces between the occurrences are collected. -/
def piecesFrom (pattern : List Char) : Nat → List Char → List (List Char)
  | _, [] => [[]]
  | skip + 1, _ :: rest => piecesFrom pattern skip rest
  | 0, c :: rest =>
    match dropPattern? pattern (c :: rest) with
    | some _ => [] :: piecesFrom pattern (pattern.length - 1) rest
    | none =>
      match piecesFrom pattern 0 rest with
      | [] => [[c]]
      | piece :: more => (c :: piece) :: more

/-- The pieces between the occurrences of a nonempty pattern: one more than there are
occurrences. -/
def pieces (pattern text : String) : List String :=
  (piecesFrom pattern.toList 0 text.toList).map String.ofList

/-- Every occurrence of a nonempty pattern replaced. -/
def replace (pattern replacement text : String) : String :=
  replacement.intercalate (pieces pattern text)

/-- The text after the first occurrence of a pattern. -/
def after? (pattern text : String) : Option String :=
  (splitFirst? pattern.toList text.toList).map fun (_, after) => String.ofList after

/-- What follows a pattern at the start of a text. -/
def dropStart? (pattern text : String) : Option String :=
  (dropPattern? pattern.toList text.toList).map String.ofList

end Regression.Text
