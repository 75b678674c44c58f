/-!
# Blank characters, trimmed text and lines

A character is blank when it has the `White_Space` property of Unicode. Trimming removes blank
characters at both ends of a text. A line ends at a line feed; one carriage return directly
before the line feed belongs to the line end.
-/

namespace Regression.Text

/-- Characters with the Unicode property `White_Space`. -/
def isBlank (c : Char) : Bool :=
  let n := c.toNat
  (0x9 ≤ n && n ≤ 0xD) || n == 0x20 || n == 0x85 || n == 0xA0 || n == 0x1680 ||
    (0x2000 ≤ n && n ≤ 0x200A) || n == 0x2028 || n == 0x2029 || n == 0x202F || n == 0x205F ||
    n == 0x3000

/-- Remove the blank characters in front. -/
def dropBlank (cs : List Char) : List Char := cs.dropWhile isBlank

/-- Remove the blank characters at the end. -/
def dropBlankEnd (cs : List Char) : List Char := (dropBlank cs.reverse).reverse

/-- Remove the blank characters in front and at the end. -/
def trim (s : String) : String := String.ofList (dropBlankEnd (dropBlank s.toList))

/-- A text of blank characters only, the empty text included. -/
def isBlankText (s : String) : Bool := s.toList.all isBlank

/-- The lines of a text, without their ends; a text that ends a line opens no further one. -/
def linesOf : List Char → List (List Char)
  | [] => []
  | '\n' :: rest => [] :: linesOf rest
  | '\r' :: '\n' :: rest => [] :: linesOf rest
  | c :: rest =>
    match linesOf rest with
    | [] => [[c]]
    | line :: more => (c :: line) :: more

/-- The lines of a text, without their ends. -/
def lines (s : String) : List String := (linesOf s.toList).map String.ofList

end Regression.Text
