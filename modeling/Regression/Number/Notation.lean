import Regression.Number.Shortest

/-!
# Written numbers

Finite numbers are written with their shortest digits. `Notation.general` is the notation of
reports: it keeps one digit behind the point and changes to a power of ten for very large and very
small numbers; `Notation.data`, that of documents, does so a little later. `Notation.plain` never
uses a power of ten and leaves out an empty fraction.

`read?` accepts a decimal with an optional sign, fraction and power of ten, and the words for the
infinities and NaN; the result is the nearest number.
-/

namespace Regression

namespace Binary64

/-! ## Writing -/

/-- Where a notation puts the point, and when it writes a power of ten. -/
structure Notation where
  /-- An integral number is followed by this text. -/
  integralEnd : String
  /-- The power of ten is used when the point is this far to the right or farther. -/
  largePoint : Option Int
  /-- The power of ten is used when the point is this far to the left or farther. -/
  smallPoint : Option Int
  /-- Which of two equally near decimals is written. -/
  tie : Tie := .up

/-- Numbers in reports: powers of ten from `10 ^ 16` on and below `10 ^ -4`. -/
def Notation.general : Notation := ⟨".0", some 17, some (-4), .up⟩

/-- Numbers in documents: powers of ten from `10 ^ 16` on and below `10 ^ -5`. -/
def Notation.data : Notation := ⟨".0", some 17, some (-5), .even⟩

/-- Numbers without powers of ten. -/
def Notation.plain : Notation := ⟨"", none, none, .up⟩

def zeros (n : Nat) : String := String.ofList (List.replicate n '0')

/-- Digits with the point in its place and no power of ten. -/
def positional (integralEnd digits : String) (point : Int) : String :=
  let count := digits.length
  if point ≤ 0 then "0." ++ zeros (-point).toNat ++ digits
  else if (count : Int) ≤ point then digits ++ zeros (point - count).toNat ++ integralEnd
  else
    let (whole, fraction) := digits.toList.splitAt point.toNat
    String.ofList whole ++ "." ++ String.ofList fraction

/-- Digits with the point behind the first one, and a power of ten. -/
def scientific (digits : String) (point : Int) : String :=
  let (first, rest) := digits.toList.splitAt 1
  String.ofList first ++ (if rest.isEmpty then "" else "." ++ String.ofList rest) ++ "e" ++
    toString (point - 1)

/-- The absolute value of a finite number. -/
def formatAbs (style : Notation) (x : Binary64) : String :=
  if x.isZero then "0" ++ style.integralEnd
  else
    let (digits, point) := x.shortest style.tie
    let digits := toString digits
    if style.largePoint.any (· ≤ point) || style.smallPoint.any (point ≤ ·) then
      scientific digits point
    else positional style.integralEnd digits point

/-- A number in a given notation. A NaN has no sign. -/
def format (style : Notation) (x : Binary64) : String :=
  if x.isNaN then "NaN"
  else
    (if x.isNegative then "-" else "") ++
      (if x.isInfinite then "inf" else formatAbs style x)

/-! ## Reading -/

def digit? (c : Char) : Option Nat :=
  if '0' ≤ c && c ≤ '9' then some (c.toNat - '0'.toNat) else none

def isDigit (c : Char) : Bool := (digit? c).isSome

/-- The value of decimal digits; other characters count as zero. -/
def digitsValue (cs : List Char) : Nat :=
  cs.foldl (fun n c => 10 * n + (digit? c).getD 0) 0

/-- The number nearest to `digits · 10 ^ exponent`. Exponents far outside the range of numbers
are cut off, which does not change the result. -/
def ofDecimal (negative : Bool) (digits : Nat) (exponent : Int) : Binary64 :=
  let point := (decimalLength digits : Int) + exponent
  if digits = 0 || point < -400 then ofMagnitude negative 0
  else if 400 < point then infinity negative
  else ofRatio negative (digits * Nat.pow 10 exponent.toNat) (Nat.pow 10 (-exponent).toNat)

/-- An optional sign in front: whether it is a minus, and the rest. -/
def dropSign : List Char → Bool × List Char
  | '-' :: rest => (true, rest)
  | '+' :: rest => (false, rest)
  | cs => (false, cs)

/-- The exponent behind `e` or `E`: at least one digit, with an optional sign. No text at all
stands for exponent 0. -/
def exponent? : List Char → Option Int
  | [] => some 0
  | c :: rest =>
    if c = 'e' || c = 'E' then
      let (negative, digits) := dropSign rest
      if !digits.isEmpty && digits.all isDigit then
        let n : Int := digitsValue digits
        some (if negative then -n else n)
      else none
    else none

/-- An unsigned decimal: digits with an optional point among, before or behind them, and an
optional exponent. -/
def decimal? (negative : Bool) (cs : List Char) : Option Binary64 :=
  let whole := cs.takeWhile isDigit
  let rest := cs.dropWhile isDigit
  let (fraction, rest) := match rest with
    | '.' :: rest => (rest.takeWhile isDigit, rest.dropWhile isDigit)
    | rest => ([], rest)
  if whole.isEmpty && fraction.isEmpty then none
  else (exponent? rest).map fun e =>
    ofDecimal negative (digitsValue (whole ++ fraction)) (e - fraction.length)

/-- Read a number. The words `inf`, `infinity` and `nan` may be written in any case. -/
def read? (s : String) : Option Binary64 :=
  let (negative, rest) := dropSign s.toList
  let word := String.ofList (rest.map Char.toLower)
  if word == "inf" || word == "infinity" then some (infinity negative)
  else if word == "nan" then some (if negative then neg nan else nan)
  else decimal? negative rest

end Binary64

end Regression
