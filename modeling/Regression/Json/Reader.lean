import Regression.Json.Basic
import Regression.Text.Digits

/-!
# Reading JSON

A text is cut into tokens, and the tokens are read with a stack of the arrays and objects that are
still open. Reading is strict: one value, no comments, no leading zeros, no raw control characters
in strings.

What has the form of a value is unreadable in four cases: a number that is too large, a string with
a lone surrogate, an object with such a string as a name, and an array or object with too many
others around it.

A number without fraction and exponent that fits into 64 bits is an integer, except `-0`. Any
other number is rounded twice: its leading digits, as many as fit into 64 bits, are rounded to
double precision, and scaling them by the power of ten rounds again. A number is too large when it
scales to infinity.
-/

namespace Regression

namespace Json

/-! ## Numbers -/

/-- Append a digit to a number below `2 ^ 64`, if the result is one. -/
def appendDigit? (n : Nat) (c : Char) : Option Nat :=
  let next := 10 * n + (Binary64.digit? c).getD 0
  if next < UInt64.size then some next else none

/-- Append digits as long as they fit; the number, and the digits left over. -/
def appendDigits (n : Nat) : List Char → Nat × List Char
  | [] => (n, [])
  | c :: rest =>
    match appendDigit? n c with
    | some next => appendDigits next rest
    | none => (n, c :: rest)

/-- Scale by a power of ten of at most 308. -/
def scaleOnce? (x : Binary64) (exponent : Int) : Option Binary64 :=
  let power := Binary64.ofNat (Nat.pow 10 exponent.natAbs)
  if exponent < 0 then some (x.divAbs power)
  else
    let product := x.mulAbs power
    if product.isInfinite then none else some product

/-- Scale a nonnegative number by a power of ten. A large negative power is taken in steps of 308;
after three of them nothing is left. -/
def scale? (x : Binary64) (exponent : Int) : Nat → Option Binary64
  | 0 => some .zero
  | steps + 1 =>
    if exponent.natAbs ≤ 308 then scaleOnce? x exponent
    else if x.isZero then some x
    else if 0 ≤ exponent then none
    else scale? (x.divAbs (.ofNat (Nat.pow 10 308))) (exponent + 308) steps

/-- The number with the given leading digits and power of ten. -/
def scaled (negative : Bool) (digits : Nat) (exponent : Int) : Json :=
  match scale? (.ofNat digits) exponent 5 with
  | some x => .real (if negative then x.neg else x)
  | none => .unreadable

/-- The power of ten behind `e` or `E`, limited to 32 bits, and the rest of the text. -/
def exponent? (cs : List Char) : Option (Option Int × List Char) :=
  match cs with
  | [] => some (none, [])
  | c :: rest =>
    if c = 'e' || c = 'E' then
      let (negative, rest) := Binary64.dropSign rest
      let digits := rest.takeWhile Binary64.isDigit
      if digits.isEmpty then none
      else
        let n : Int := min (Binary64.digitsValue digits) (Nat.pow 2 31)
        some (some (if negative then -n else n), rest.dropWhile Binary64.isDigit)
    else some (none, c :: rest)

/-- The value of a number that has its sign, its digits before and behind the point, and its
exponent. Of the digits before the point those that do not fit are dropped, of those behind it all
from the first on that does not fit. -/
def numberOf (negative : Bool) (whole : List Char) (fraction : Option (List Char))
    (exponent : Option Int) : Json :=
  let (n, dropped) := appendDigits 0 whole
  match fraction, exponent with
  | none, none =>
    if !dropped.isEmpty then scaled negative n dropped.length
    else if !negative then .int n
    else if 0 < n && n ≤ Nat.pow 2 63 then .int (-n)
    else .real (Binary64.ofNat n).neg
  | fraction, exponent =>
    let fraction := fraction.getD []
    let (m, left) := appendDigits n fraction
    let used := fraction.length - left.length
    scaled negative m ((dropped.length : Int) - used + exponent.getD 0)

/-- A number at the start of a text without its sign, and the rest of the text. -/
def unsigned? (negative : Bool) (cs : List Char) : Option (Json × List Char) := do
  let whole := cs.takeWhile Binary64.isDigit
  if whole.isEmpty || (whole.head? == some '0' && 1 < whole.length) then none
  let (fraction, rest) ← match cs.dropWhile Binary64.isDigit with
    | '.' :: rest =>
      let digits := rest.takeWhile Binary64.isDigit
      if digits.isEmpty then none else some (some digits, rest.dropWhile Binary64.isDigit)
    | rest => some (none, rest)
  let (exponent, rest) ← exponent? rest
  return (numberOf negative whole fraction exponent, rest)

/-! ## Strings -/

/-- The number of four hexadecimal digits at the start of a text. -/
def unit? (cs : List Char) : Option (Nat × List Char) := do
  let digits := cs.take 4
  let n ← Text.natural? 16 digits
  if digits.length = 4 then some (n, cs.drop 4) else none

def isLeading (n : Nat) : Bool := 0xD800 ≤ n && n < 0xDC00

def isTrailing (n : Nat) : Bool := 0xDC00 ≤ n && n < 0xE000

/-- The second half of a pair of surrogates at the start of a text. -/
def trailing? : List Char → Option (Nat × List Char)
  | '\\' :: 'u' :: rest => do
    let (n, rest) ← unit? rest
    if isTrailing n then some (n, rest) else none
  | _ => none

/-- The character behind `\u`: one unit, or a pair of surrogates. A lone surrogate is no
character. -/
def escapedUnit? (cs : List Char) : Option (Option Char × List Char) := do
  let (n, rest) ← unit? cs
  if isLeading n then
    match trailing? rest with
    | some (m, rest) =>
      some (some (Char.ofNat (0x10000 + (n - 0xD800) * 0x400 + (m - 0xDC00))), rest)
    | none => some (none, rest)
  else if isTrailing n then some (none, rest)
  else some (some (Char.ofNat n), rest)

/-- The character behind a backslash. -/
def escaped? : List Char → Option (Option Char × List Char)
  | '"' :: rest => some (some '"', rest)
  | '\\' :: rest => some (some '\\', rest)
  | '/' :: rest => some (some '/', rest)
  | 'b' :: rest => some (some '\x08', rest)
  | 'f' :: rest => some (some '\x0c', rest)
  | 'n' :: rest => some (some '\n', rest)
  | 'r' :: rest => some (some '\r', rest)
  | 't' :: rest => some (some '\t', rest)
  | 'u' :: rest => escapedUnit? rest
  | _ => none

theorem length_unit? {cs rest : List Char} {n : Nat} (h : unit? cs = some (n, rest)) :
    rest.length < cs.length := by
  simp only [unit?, Option.bind_eq_bind, Option.bind_eq_some_iff] at h
  obtain ⟨_, _, h⟩ := h
  split at h
  case isTrue four =>
    simp only [Option.some.injEq, Prod.mk.injEq] at h
    obtain ⟨_, rfl⟩ := h
    rw [List.length_take] at four
    simp only [List.length_drop]; omega
  case isFalse => simp at h

theorem length_trailing? {cs rest : List Char} {n : Nat} (h : trailing? cs = some (n, rest)) :
    rest.length < cs.length := by
  unfold trailing? at h
  split at h
  · simp only [Option.bind_eq_bind, Option.bind_eq_some_iff, Prod.exists] at h
    obtain ⟨m, r, hu, h⟩ := h
    have hr := length_unit? hu
    split at h
    · simp only [Option.some.injEq, Prod.mk.injEq] at h
      obtain ⟨_, rfl⟩ := h
      simp only [List.length_cons]; omega
    · simp at h
  · simp at h

theorem length_escapedUnit? {cs rest : List Char} {c : Option Char}
    (h : escapedUnit? cs = some (c, rest)) : rest.length < cs.length := by
  simp only [escapedUnit?, Option.bind_eq_bind, Option.bind_eq_some_iff, Prod.exists] at h
  obtain ⟨n, r, hu, h⟩ := h
  have hr := length_unit? hu
  split at h
  · split at h
    next ht =>
      have hr' := length_trailing? ht
      simp only [Option.some.injEq, Prod.mk.injEq] at h
      obtain ⟨_, rfl⟩ := h
      omega
    next =>
      simp only [Option.some.injEq, Prod.mk.injEq] at h
      obtain ⟨_, rfl⟩ := h
      exact hr
  · split at h
    all_goals
      simp only [Option.some.injEq, Prod.mk.injEq] at h
      obtain ⟨_, rfl⟩ := h
      exact hr

theorem length_escaped? {cs rest : List Char} {c : Option Char}
    (h : escaped? cs = some (c, rest)) : rest.length < cs.length := by
  unfold escaped? at h
  split at h
  case h_9 => have := length_escapedUnit? h; simp only [List.length_cons]; omega
  case h_10 => simp at h
  all_goals
    simp only [Option.some.injEq, Prod.mk.injEq] at h
    obtain ⟨_, rfl⟩ := h
    simp

/-- A character in front of others, if all of them are characters. -/
def prepend (c : Option Char) (cs : Option (List Char)) : Option (List Char) := do
  return (← c) :: (← cs)

/-- The characters of a string up to its closing quotation mark, unless one is a lone surrogate, and
the rest of the text. -/
def stringBody? : List Char → Option (Option (List Char) × List Char)
  | [] => none
  | '"' :: rest => some (some [], rest)
  | '\\' :: rest =>
    match h : escaped? rest with
    | some (c, rest') =>
      have : rest'.length < rest.length := length_escaped? h
      (stringBody? rest').map fun (cs, rest) => (prepend c cs, rest)
    | none => none
  | c :: rest =>
    if c.toNat < 0x20 then none
    else (stringBody? rest).map fun (cs, rest) => (prepend (some c) cs, rest)
termination_by cs => cs.length
decreasing_by all_goals simp only [List.length_cons]; omega

/-! ## Tokens -/

inductive Token where
  | openArray
  | closeArray
  | openObject
  | closeObject
  | colon
  | comma
  /-- A string, unless it holds a lone surrogate. -/
  | text (value : Option String)
  | scalar (value : Json)
  deriving Inhabited

def isSpace (c : Char) : Bool := c == ' ' || c == '\t' || c == '\n' || c == '\r'

/-- The token at the start of a text that does not start with white space, and the rest. -/
def token? : List Char → Option (Token × List Char)
  | '[' :: rest => some (.openArray, rest)
  | ']' :: rest => some (.closeArray, rest)
  | '\x7b' :: rest => some (.openObject, rest)
  | '\x7d' :: rest => some (.closeObject, rest)
  | ':' :: rest => some (.colon, rest)
  | ',' :: rest => some (.comma, rest)
  | 't' :: 'r' :: 'u' :: 'e' :: rest => some (.scalar (.bool true), rest)
  | 'f' :: 'a' :: 'l' :: 's' :: 'e' :: rest => some (.scalar (.bool false), rest)
  | 'n' :: 'u' :: 'l' :: 'l' :: rest => some (.scalar .null, rest)
  | '"' :: rest =>
    (stringBody? rest).map fun (cs, rest) => (.text (cs.map String.ofList), rest)
  | '-' :: rest => (unsigned? true rest).map fun (value, rest) => (.scalar value, rest)
  | cs => (unsigned? false cs).map fun (value, rest) => (.scalar value, rest)

/-- All tokens of a text. Every token takes a character, so the length of the text bounds their
number. -/
def tokensWithin : Nat → List Char → Option (List Token)
  | 0, cs => if cs.all isSpace then some [] else none
  | bound + 1, cs =>
    match cs.dropWhile isSpace with
    | [] => some []
    | cs => do
      let (token, rest) ← token? cs
      return token :: (← tokensWithin bound rest)

def tokens? (s : String) : Option (List Token) :=
  let cs := s.toList
  tokensWithin cs.length cs

/-! ## Values -/

/-- An array or object that is still open, its contents in reverse order. An object waits for the
value of its last name, and remembers whether all its names can be read. -/
inductive Frame where
  | array (items : List Json)
  | object (fields : List (String × Json)) (name : String) (isReadable : Bool)

/-- What may come next. -/
inductive Expecting where
  | value
  | itemOrClose
  | name
  | nameOrClose
  | colon
  | commaOrClose

inductive Reading where
  | inside (stack : List Frame) (next : Expecting)
  | complete (value : Json)

/-- A value is complete: it is the result, or belongs to the innermost open array or object. -/
def Reading.put (value : Json) : List Frame → Reading
  | [] => .complete value
  | .array items :: stack => .inside (.array (value :: items) :: stack) .commaOrClose
  | .object fields name isReadable :: stack =>
    .inside (.object ((name, value) :: fields) "" isReadable :: stack) .commaOrClose

/-- An array or object is complete. It is unreadable with `limit` others around it. -/
def Reading.close (limit : Nat) (isReadable : Bool) (value : Json) (stack : List Frame) : Reading :=
  Reading.put (if isReadable && stack.length < limit then value else .unreadable) stack

/-- Read a value or the start of one. -/
def Reading.value? (stack : List Frame) : Token → Option Reading
  | .scalar value => some (Reading.put value stack)
  | .text value => some (Reading.put ((value.map .text).getD .unreadable) stack)
  | .openArray => some (.inside (.array [] :: stack) .itemOrClose)
  | .openObject => some (.inside (.object [] "" true :: stack) .nameOrClose)
  | _ => none

/-- Read one token. -/
def Reading.step? (limit : Nat) : Reading → Token → Option Reading
  | .complete _, _ => none
  | .inside stack .value, token => Reading.value? stack token
  | .inside (.array [] :: stack) .itemOrClose, .closeArray =>
    some (Reading.close limit true (.array []) stack)
  | .inside stack .itemOrClose, token => Reading.value? stack token
  | .inside (.object [] _ _ :: stack) .nameOrClose, .closeObject =>
    some (Reading.close limit true (.object []) stack)
  | .inside (.object fields _ isReadable :: stack) .name, .text name
  | .inside (.object fields _ isReadable :: stack) .nameOrClose, .text name =>
    some (.inside (.object fields (name.getD "") (isReadable && name.isSome) :: stack) .colon)
  | .inside stack .colon, .colon => some (.inside stack .value)
  | .inside (.array items :: stack) .commaOrClose, .comma =>
    some (.inside (.array items :: stack) .value)
  | .inside (.array items :: stack) .commaOrClose, .closeArray =>
    some (Reading.close limit true (.array items.reverse) stack)
  | .inside (.object fields name isReadable :: stack) .commaOrClose, .comma =>
    some (.inside (.object fields name isReadable :: stack) .name)
  | .inside (.object fields _ isReadable :: stack) .commaOrClose, .closeObject =>
    some (Reading.close limit isReadable (.object fields.reverse) stack)
  | _, _ => none

/-- The value of a text. What is nested more than `limit` deep is unreadable. -/
def read? (limit : Nat) (s : String) : Option Json := do
  let tokens ← tokens? s
  match ← tokens.foldlM (Reading.step? limit) (.inside [] .value) with
  | .complete value => some value
  | .inside .. => none

/-- The nesting that files and requests may have. -/
def maxDepth : Nat := 127

/-- The value of a text with `maxDepth` levels. -/
def ofText? (s : String) : Option Json := read? maxDepth s

mutual

/-- Keep only the last field of each name, at all levels. -/
def lastFields : Json → Json
  | .array items => .array (lastFieldsItems items)
  | .object fields => .object (lastFieldsOf fields)
  | j => j

def lastFieldsItems : List Json → List Json
  | [] => []
  | item :: rest => lastFields item :: lastFieldsItems rest

def lastFieldsOf : List (String × Json) → List (String × Json)
  | [] => []
  | field :: rest =>
    if (valuesOf field.1 rest).isEmpty then lastField field :: lastFieldsOf rest
    else lastFieldsOf rest

def lastField : String × Json → String × Json
  | (name, value) => (name, lastFields value)

end

end Json

end Regression
