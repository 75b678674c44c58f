import Regression.Yaml.Number

/-!
# Written scalars

A text is written plainly if it then reads back as the same text. Otherwise it is written between
single quotation marks, or, if some of its characters need escapes, between double ones. A text of
several lines is written as a block.
-/

namespace Regression.Yaml

/-! ## What a text is like -/

/-- Written plainly, the text is taken for something else. -/
def isAmbiguous (s : String) : Bool :=
  let cs := s.toList
  let unsigned := if cs.head?.any (fun c => c == '+' || c == '-') then cs.tail else cs
  s.isEmpty || isNullWord s || isTruthWord s || hasLeadingZero unsigned ||
    (integer? cs).any (fun i => -Int.pow 2 127 ≤ i && i < Int.pow 2 128) || (real? s).isSome

/-- Characters that need no escape. -/
def isPrintable (c : Char) : Bool :=
  let n := c.toNat
  n == 0xA || (0x20 ≤ n && n ≤ 0x7E) || (0xA0 ≤ n && n ≤ 0xFFFD && c != byteOrderMark) ||
    0x10000 ≤ n

/-- A character of one kind comes right before one of another kind. -/
def adjacent (first second : Char → Bool) : List Char → Bool
  | a :: b :: rest => (first a && second b) || adjacent first second (b :: rest)
  | _ => false

def isSpace (c : Char) : Bool := c == ' '

/-- Starts like something other than a plain scalar. -/
def startsMarked (cs : List Char) : Bool :=
  match cs with
  | '-' :: '-' :: '-' :: _ | '.' :: '.' :: '.' :: _ => true
  | c :: rest =>
    if c == '-' || c == '?' || c == ':' then atSpacing rest else Layout.isIndicator c
  | [] => false

/-- Holds a mark that ends a plain scalar. -/
def holdsMark (cs : List Char) : Bool :=
  adjacent (· == ':') isSpacing cs || cs.getLast? == some ':' || adjacent isSpacing (· == '#') cs

/-- Single quotation marks keep the text as it is. -/
def fitsQuotes (cs : List Char) : Bool :=
  cs.all isPrintable && !adjacent isBreak isSpace cs && !adjacent isSpace isBreak cs

def fitsPlain (cs : List Char) : Bool :=
  cs.all (fun c => isPrintable c && !isBreak c) && cs.head? != some ' ' &&
    cs.getLast? != some ' ' && !startsMarked cs && !holdsMark cs

def fitsBlock (cs : List Char) : Bool :=
  cs.all isPrintable && !adjacent isSpace isBreak cs && cs.getLast? != some ' '

/-! ## Writing -/

/-- Lines behind the first one are indented. -/
def indented (indent : Nat) : Bool → List Char → List Char
  | _, [] => []
  | atLineStart, c :: rest =>
    if isBreak c then c :: indented indent true rest
    else
      (if atLineStart then List.replicate indent ' ' else []) ++ c :: indented indent false rest

/-- The header of a block: a number if the first line does not tell the indentation, and how the
text ends. -/
def blockHeader (cs : List Char) : String :=
  (if cs.head?.any (fun c => isSpace c || isBreak c) then "|2" else "|") ++
    match cs.reverse with
    | [] => "-"
    | [c] => if isBreak c then "+" else "-"
    | c :: d :: _ => if !isBreak c then "-" else if isBreak d then "+" else ""

def writtenBlock (indent : Nat) (cs : List Char) : String :=
  blockHeader cs ++ "\n" ++ String.ofList (indented indent true cs)

def writtenSingle (indent : Nat) (cs : List Char) : String :=
  let doubled := cs.flatMap fun c => if c = '\'' then ['\'', '\''] else [c]
  let body := indented indent false doubled
  let last := if cs.getLast?.any isBreak then List.replicate indent ' ' else []
  "'" ++ String.ofList (body ++ last) ++ "'"

/-- The upper-case hexadecimal digits of a number. -/
def digitsOf (length n : Nat) : String :=
  let digits := (Nat.toDigits 16 n).map Char.toUpper
  String.ofList (List.replicate (length - digits.length) '0' ++ digits)

/-- A character between double quotation marks. -/
def escaped (c : Char) : String :=
  match c with
  | '"' => "\\\""
  | '\\' => "\\\\"
  | '\x00' => "\\0"
  | '\x07' => "\\a"
  | '\x08' => "\\b"
  | '\t' => "\\t"
  | '\n' => "\\n"
  | '\x0b' => "\\v"
  | '\x0c' => "\\f"
  | '\r' => "\\r"
  | '\x1b' => "\\e"
  | '\u0085' => "\\N"
  | '\u2028' => "\\L"
  | '\u2029' => "\\P"
  | c =>
    let n := c.toNat
    if isPrintable c then String.singleton c
    else if n ≤ 0xFF then "\\x" ++ digitsOf 2 n
    else "\\u" ++ digitsOf 4 n

def writtenDouble (cs : List Char) : String := "\"" ++ String.join (cs.map escaped) ++ "\""

/-- A text as a scalar. Its lines behind the first one are indented. -/
def written (indent : Nat) (s : String) : String :=
  let cs := s.toList
  if cs.contains '\n' then if fitsBlock cs then writtenBlock indent cs else writtenDouble cs
  else if !isAmbiguous s && fitsPlain cs then s
  else if fitsQuotes cs then writtenSingle indent cs
  else writtenDouble cs

/-- An entry of a mapping, with its line end. A block may end the line itself. -/
def writtenEntry (column : Nat) (key scalar : String) : String :=
  String.ofList (List.replicate column ' ') ++ key ++ ": " ++ scalar ++
    if scalar.toList.getLast?.any isBreak then "" else "\n"

end Regression.Yaml
