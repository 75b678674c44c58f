/-!
# Characters of YAML documents

The classes of characters that the rules for documents speak of. The usual spellings of a line end
all mean the same and are read as a line feed; the two separators of Unicode end lines too, but
keep their spelling.
-/

namespace Regression.Yaml

/-- Characters that a document may hold at all. -/
def isAllowed (c : Char) : Bool :=
  let n := c.toNat
  n == 0x9 || n == 0xA || n == 0xD || (0x20 ≤ n && n ≤ 0x7E) || n == 0x85 ||
    (0xA0 ≤ n && n ≤ 0xFFFD) || 0x10000 ≤ n

/-- Every line end but the separators of Unicode as a line feed. -/
def unifyLineEnds : List Char → List Char
  | [] => []
  | '\r' :: '\n' :: rest => '\n' :: unifyLineEnds rest
  | '\r' :: rest => '\n' :: unifyLineEnds rest
  | '\u0085' :: rest => '\n' :: unifyLineEnds rest
  | c :: rest => c :: unifyLineEnds rest

def isBreak (c : Char) : Bool := c == '\n' || c == '\u2028' || c == '\u2029'

def isBlank (c : Char) : Bool := c == ' ' || c == '\t'

def isSpacing (c : Char) : Bool := isBlank c || isBreak c

/-- White space comes next, or nothing. -/
def atSpacing : List Char → Bool
  | [] => true
  | c :: _ => isSpacing c

/-- Characters of the names of anchors and directives. -/
def isNameChar (c : Char) : Bool := c.isAlphanum || c == '_' || c == '-'

def byteOrderMark : Char := '\uFEFF'

/-- The line is a mark that starts or ends a document. -/
def startsMarker : List Char → Bool
  | '-' :: '-' :: '-' :: rest => atSpacing rest
  | '.' :: '.' :: '.' :: rest => atSpacing rest
  | _ => false

end Regression.Yaml
