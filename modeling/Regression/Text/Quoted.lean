import Regression.Text.Invisible

/-!
# Quoted text

A text between quotation marks, on one line and readable: quotation marks, backslashes and the
usual control characters have short escapes, other invisible and combining characters are written
by their code point.
-/

namespace Regression.Text

/-- The lower-case hexadecimal digits of a number. -/
def hexadecimal (n : Nat) : String := String.ofList (Nat.toDigits 16 n)

/-- A code point between braces, as in `\u{1f}`. -/
def codePoint (c : Char) : String := "\\u\x7b" ++ hexadecimal c.toNat ++ "\x7d"

/-- How one character is written between quotation marks. -/
def quotedChar (c : Char) : String :=
  match c with
  | '"' => "\\\""
  | '\\' => "\\\\"
  | '\n' => "\\n"
  | '\r' => "\\r"
  | '\t' => "\\t"
  | '\x00' => "\\0"
  | c => if isInvisible c then codePoint c else String.singleton c

/-- A text between quotation marks. -/
def quoted (s : String) : String :=
  "\"" ++ String.join (s.toList.map quotedChar) ++ "\""

end Regression.Text
