import Regression.Text.Blank
import Regression.Timestamp

/-!
# Reading points in time

A date and a time of day are read part by part, and each part has to be in its range. Any offset
from universal time may follow, or the word for universal time; blanks may stand between the parts.

Databases keep points in time in a form of their own, in which the time of day may stand behind a
blank, an offset need not have minutes, and universal time is meant when there is no offset.
-/

namespace Regression

inductive TimestampFault where
  | outOfRange
  | invalid
  /-- The text ends too early. -/
  | tooShort
  /-- Something follows. -/
  | tooLong
  deriving DecidableEq, Repr, Inhabited

def TimestampFault.message : TimestampFault → String
  | .outOfRange => "input is out of range"
  | .invalid => "input contains invalid characters"
  | .tooShort => "premature end of input"
  | .tooLong => "trailing input"

namespace Timestamp

/-- Reading from the start of a text. -/
abbrev Reader := StateT (List Char) (Except TimestampFault)

namespace Reader

def skipBlank : Reader Unit := modify Text.dropBlank

/-- A number of at least one and at most `width` digits. -/
def digits (width : Nat) : Reader Nat := do
  match ← get with
  | [] => throw .tooShort
  | cs =>
    let digits := (cs.take width).takeWhile Binary64.isDigit
    if digits.isEmpty then throw .invalid
    let n := Binary64.digitsValue digits
    if Nat.pow 2 63 ≤ n then throw .outOfRange
    set (cs.drop digits.length)
    return n

/-- A number in a range, of at most two digits. Blanks may precede it. -/
def part (low high : Nat) : Reader Nat := do
  skipBlank
  let n ← digits 2
  if low ≤ n && n ≤ high then return n else throw .outOfRange

/-- A year: four digits at most, or any number behind a sign. -/
def year : Reader Int := do
  skipBlank
  let cs ← get
  let y : Int ← match cs with
    | '-' :: rest =>
      set rest
      pure (-(← digits rest.length))
    | '+' :: rest =>
      set rest
      pure (← digits rest.length)
    | _ => pure (← digits 4)
  if Int32.minValue.toInt ≤ y && y ≤ Int32.maxValue.toInt then return y else throw .outOfRange

def separator (c : Char) : Reader Unit := do
  match ← get with
  | [] => throw .tooShort
  | d :: rest => if c = d then set rest else throw .invalid

/-- The fraction behind a point, in nanoseconds; further digits do not count. -/
def fraction : Reader Nat := do
  match ← get with
  | '.' :: rest =>
    set rest
    let n ← digits 9
    let used := rest.length - (← get).length
    modify (·.dropWhile Binary64.isDigit)
    return n * Nat.pow 10 (9 - used)
  | _ => return 0

def twoDigits : Reader Nat := do
  match ← get with
  | a :: b :: rest =>
    match Binary64.digit? a, Binary64.digit? b with
    | some a, some b => do set rest; return 10 * a + b
    | _, _ => throw .invalid
  | _ => throw .tooShort

/-- The hours and minutes of an offset, in seconds. -/
def offsetSeconds (needsMinutes : Bool) : Reader Nat := do
  let hours ← twoDigits
  modify (·.dropWhile fun c => c == ':' || Text.isBlank c)
  let minutes ← if !needsMinutes && (← get).isEmpty then pure 0 else twoDigits
  if minutes < 60 then return 3600 * hours + 60 * minutes else throw .outOfRange

/-- An offset from universal time, in seconds. -/
def offset (needsMinutes : Bool) : Reader Int := do
  match ← get with
  | 'Z' :: rest | 'z' :: rest => do set rest; return 0
  | '+' :: rest => do set rest; return ← offsetSeconds needsMinutes
  | '-' :: rest | '−' :: rest => do set rest; return -(← offsetSeconds needsMinutes)
  | [] => throw .tooShort
  | _ => throw .invalid

/-- The word for universal time, or an offset from it. -/
def zone : Reader Int := do
  let cs ← get
  if (cs.take 3).map Char.toUpper = "UTC".toList then
    set (cs.drop 3)
    return 0
  else offset true

/-- Nothing is left. -/
def atEnd : Reader Unit := do if !(← get).isEmpty then throw .tooLong

end Reader

/-! ## Dates and times of day -/

/-- A date and a time of day, of which every part is in its range. -/
structure Parts where
  year : Int
  month : Nat
  day : Nat
  hour : Nat
  minute : Nat
  second : Nat
  nanosecond : Nat
  deriving Repr

/-- The point in time that is meant at an offset from universal time, if the calendar has it. -/
def Parts.at? (p : Parts) (offset : Int) : Option Timestamp :=
  let leap := if p.second = 60 then 1 else 0
  let clock := 3600 * p.hour + 60 * p.minute + (p.second - leap)
  let second := daysOfDate p.year p.month p.day * 86400 + (clock : Int)
  if p.day ≤ daysInMonth p.year p.month && isInCalendar second && offset.natAbs < 86400 &&
      isInCalendar (second - offset) then
    some { seconds := second - offset, nanoseconds := p.nanosecond + 1000000000 * leap }
  else none

/-- A date and a time of day. Blanks may precede the separators where that is said. -/
def parts (allowsBlank : Bool) (between : Reader Unit) : Reader Parts := do
  let separator (c : Char) : Reader Unit := do
    if allowsBlank then Reader.skipBlank
    Reader.separator c
  let year ← Reader.year
  separator '-'
  let month ← Reader.part 1 12
  separator '-'
  let day ← Reader.part 1 31
  between
  let hour ← Reader.part 0 23
  separator ':'
  let minute ← Reader.part 0 59
  separator ':'
  let second ← Reader.part 0 60
  return { year, month, day, hour, minute, second, nanosecond := ← Reader.fraction }

def found : Option Timestamp → Reader Timestamp
  | some t => return t
  | none => throw .outOfRange

/-! ## The usual form -/

/-- The mark between date and time of day. -/
def mark : Reader Unit := do
  match ← get with
  | 'T' :: rest | 't' :: rest | ' ' :: rest => set rest
  | [] => throw .tooShort
  | _ => throw .invalid

/-- A point in time with its offset from universal time. -/
def zoned : Reader Timestamp := do
  let parts ← parts true mark
  Reader.skipBlank
  let offset ← Reader.zone
  Reader.skipBlank
  Reader.atEnd
  found (parts.at? offset)

def parse? (s : String) : Option Timestamp := (zoned.run s.toList).toOption.map (·.1)

/-! ## The form of databases -/

/-- Whether the mark `T` stands where it does when the year has four digits. -/
def hasMark (s : String) : Bool := s.toUTF8.data[10]? == some 'T'.toUInt8

/-- A point in time as databases keep it, in universal time unless an offset follows. -/
def column (hasMark hasOffset : Bool) : Reader Timestamp := do
  let parts ← parts false (if hasMark then Reader.separator 'T' else Reader.skipBlank)
  let offset ← if hasOffset then do
      Reader.skipBlank
      Reader.offset false
    else pure 0
  Reader.atEnd
  found (parts.at? offset)

/-- Read a point in time as databases keep it. The fault is that of a text without offset. -/
def ofColumn (s : String) : Except TimestampFault Timestamp :=
  match (column (hasMark s) true).run s.toList with
  | .ok (t, _) => .ok t
  | .error _ => ((column (hasMark s) false).run s.toList).map (·.1)

end Timestamp

end Regression
