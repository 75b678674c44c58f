import Regression.Text.Digits
import Regression.Yaml.Character

/-!
# Scalars

A scalar is a text, written plainly, between quotation marks, or as a block of indented lines. In
the first two forms it is a row of words with gaps between them: a gap on one line is kept as it
is, a single line end in it becomes a space, and of more line ends all but the first are kept.

Every reading function returns the text together with what follows it in the document.
-/

namespace Regression.Yaml

inductive ScalarStyle where
  | plain
  | singleQuoted
  | doubleQuoted
  /-- A block whose line ends are kept. -/
  | literal
  /-- A block whose lines are joined. -/
  | folded
  deriving DecidableEq, Repr, Inhabited

/-! ## Gaps -/

/-- White space between two words. -/
structure Gap where
  /-- The blanks in front of the first line end. -/
  blanks : List Char := []
  /-- The first line end. One that is escaped is empty. -/
  lineEnd : Option (List Char) := none
  /-- The further line ends. -/
  furtherEnds : List Char := []
  /-- The number of characters behind the last line end. -/
  column : Nat := 0
  /-- The least column of a tab behind a line end. -/
  tab : Option Nat := none

namespace Gap

def add (g : Gap) (c : Char) : Gap :=
  match g.lineEnd with
  | none =>
    if isBreak c then { g with lineEnd := some [c], column := 0 }
    else { g with blanks := g.blanks ++ [c] }
  | some _ =>
    if isBreak c then { g with furtherEnds := g.furtherEnds ++ [c], column := 0 }
    else
      { g with
        column := g.column + 1
        tab := if c = '\t' then some (min g.column (g.tab.getD g.column)) else g.tab }

/-- The gap that a text starts with, added to what there is of it. -/
def read (g : Gap) : List Char → Gap × List Char
  | [] => (g, [])
  | c :: rest => if isSpacing c then (g.add c).read rest else (g, c :: rest)

/-- What a gap means between two words. -/
def text (g : Gap) : List Char :=
  match g.lineEnd with
  | none => g.blanks
  | some ['\n'] => if g.furtherEnds.isEmpty then [' '] else g.furtherEnds
  | some lineEnd => lineEnd ++ g.furtherEnds

/-- A line starts right behind the gap. -/
def endsAtLineStart (g : Gap) : Bool := g.lineEnd.isSome && g.column == 0

end Gap

/-! ## Plain scalars -/

def isFlowIndicator (c : Char) : Bool := c == ',' || c == '[' || c == ']' || c == '{' || c == '}'

/-- A word of a plain scalar. It ends at white space, at a colon in front of white space, and, in a
flow, at an indicator of flows. A colon may not stand in front of such an indicator. -/
def plainWord? (inFlow : Bool) : List Char → Option (List Char × List Char)
  | [] => some ([], [])
  | c :: rest =>
    if isSpacing c || (c == ':' && atSpacing rest) || (inFlow && isFlowIndicator c) then
      some ([], c :: rest)
    else if inFlow && c == ':' && rest.head?.any (fun d => isFlowIndicator d || d == '?') then none
    else (plainWord? inFlow rest).map fun (cs, rest) => (c :: cs, rest)

/-- A plain scalar of at most `bound` words, what follows it and the gap behind it, and whether
that gap ends a line. Further lines have to be indented by `indent` unless they are in a flow. -/
def plainWithin (inFlow : Bool) (indent : Nat) :
    Nat → List Char → Option (List Char × List Char × Bool)
  | 0, _ => none
  | bound + 1, cs => do
    let (word, rest) ← plainWord? inFlow cs
    let (gap, next) := ({} : Gap).read rest
    let isLast := gap.lineEnd.isSome && !inFlow && gap.column < indent ||
      gap.endsAtLineStart && startsMarker next || next.head? == some '#'
    if !rest.head?.any isSpacing then return (word, rest, false)
    else if gap.tab.any (· < indent) then none
    else if isLast then return (word, next, gap.lineEnd.isSome)
    else
      let (words, rest, endsLine) ← plainWithin inFlow indent bound next
      if words.isEmpty then return (word, next, gap.lineEnd.isSome)
      else return (word ++ gap.text ++ words, rest, endsLine)

def plain? (inFlow : Bool) (indent : Nat) (cs : List Char) :
    Option (List Char × List Char × Bool) :=
  plainWithin inFlow indent (cs.length + 1) cs

/-! ## Quoted scalars -/

/-- The character with the given number of hexadecimal digits, and how long its escape is. -/
def numberedEscape? (length : Nat) (cs : List Char) : Option (Char × Nat) := do
  let digits := cs.take length
  let n ← Text.natural? 16 digits
  if digits.length = length && n.isValidChar then some (.ofNat n, length + 1) else none

/-- The character behind a backslash, and the number of characters that stand for it. -/
def escape? : List Char → Option (Char × Nat)
  | '0' :: _ => some ('\x00', 1)
  | 'a' :: _ => some ('\x07', 1)
  | 'b' :: _ => some ('\x08', 1)
  | 't' :: _ | '\t' :: _ => some ('\t', 1)
  | 'n' :: _ => some ('\n', 1)
  | 'v' :: _ => some ('\x0b', 1)
  | 'f' :: _ => some ('\x0c', 1)
  | 'r' :: _ => some ('\r', 1)
  | 'e' :: _ => some ('\x1b', 1)
  | ' ' :: _ => some (' ', 1)
  | '"' :: _ => some ('"', 1)
  | '/' :: _ => some ('/', 1)
  | '\\' :: _ => some ('\\', 1)
  | 'N' :: _ => some ('\u0085', 1)
  | '_' :: _ => some ('\u00a0', 1)
  | 'L' :: _ => some ('\u2028', 1)
  | 'P' :: _ => some ('\u2029', 1)
  | 'x' :: rest => numberedEscape? 2 rest
  | 'u' :: rest => numberedEscape? 4 rest
  | 'U' :: rest => numberedEscape? 8 rest
  | _ => none

/-- What ends a word of a quoted scalar. -/
inductive WordEnd where
  | quotationMark
  | spacing
  /-- A backslash in front of a line end: the lines are joined without a space. -/
  | escapedLineEnd
  deriving DecidableEq, Repr

/-- A word of a quoted scalar, after a number of characters that were dealt with already. -/
def quotedWord? (isSingle : Bool) : Nat → List Char → Option (List Char × WordEnd × List Char)
  | _, [] => none
  | skipped + 1, _ :: rest => quotedWord? isSingle skipped rest
  | 0, c :: rest =>
    let withNext (c : Char) (skipped : Nat) :=
      (quotedWord? isSingle skipped rest).map fun (cs, next) => (c :: cs, next)
    if isSpacing c then some ([], .spacing, c :: rest)
    else if isSingle then
      if c ≠ '\'' then withNext c 0
      else if rest.head? == some '\'' then withNext c 1
      else some ([], .quotationMark, rest)
    else if c = '"' then some ([], .quotationMark, rest)
    else if c = '\\' then
      if rest.head?.any isBreak then some ([], .escapedLineEnd, rest.tail)
      else (escape? rest).bind fun (escaped, length) => withNext escaped length
    else withNext c 0

/-- A quoted scalar of at most `bound` words, behind its first quotation mark. No line of it may
look like a mark that starts or ends a document. -/
def quotedWithin (isSingle : Bool) : Nat → Bool → List Char → Option (List Char × List Char)
  | 0, _, _ => none
  | bound + 1, atLineStart, cs => do
    if atLineStart && startsMarker cs then none
    else
      let (word, wordEnd, rest) ← quotedWord? isSingle 0 cs
      if wordEnd = .quotationMark then return (word, rest)
      else
        let start : Gap := if wordEnd = .escapedLineEnd then { lineEnd := some [] } else {}
        let (gap, next) := start.read rest
        let (words, rest) ← quotedWithin isSingle bound gap.endsAtLineStart next
        return (word ++ gap.text ++ words, rest)

/-- A quoted scalar behind its first quotation mark. -/
def quoted? (isSingle : Bool) (cs : List Char) : Option (List Char × List Char) :=
  quotedWithin isSingle (cs.length + 1) false cs

/-! ## Blocks -/

/-- What becomes of the line ends at the end of a block. -/
inductive Chomping where
  | strip
  /-- The last line keeps its end, and empty lines behind it are dropped. -/
  | clip
  | keep
  deriving DecidableEq, Repr

def chomping? : List Char → Option (Chomping × List Char)
  | '+' :: rest => some (.keep, rest)
  | '-' :: rest => some (.strip, rest)
  | _ => none

/-- A digit that tells the indentation of a block. -/
def indentation? : List Char → Option (Option Nat × List Char)
  | c :: rest =>
    match Text.digit? 10 c with
    | some 0 => none
    | some n => some (some n, rest)
    | none => some (none, c :: rest)
  | [] => some (none, [])

/-- The header of a block up to its line end: its chomping, the indentation it tells, and what
follows. -/
def blockHeader? (cs : List Char) : Option (Chomping × Option Nat × List Char) := do
  let (chomping, indent, rest) ← match chomping? cs with
    | some (chomping, rest) =>
      (indentation? rest).map fun (indent, rest) => (chomping, indent, rest)
    | none =>
      (indentation? cs).map fun (indent, rest) =>
        match indent, chomping? rest with
        | some _, some (chomping, rest) => (chomping, indent, rest)
        | _, _ => (.clip, indent, rest)
  let rest := rest.dropWhile isBlank
  let rest := if rest.head? == some '#' then rest.dropWhile (!isBreak ·) else rest
  match rest with
  | [] => return (chomping, indent, [])
  | c :: rest => if isBreak c then return (chomping, indent, rest) else none

/-- The indentation of the next line that is not empty, the largest indentation on the way, the
line ends that were passed, and what follows. No more than `indent` blanks count, and none of them
may be a tab. -/
def emptyLines? (indent : Option Nat) (column widest : Nat) (ends : List Char) :
    List Char → Option (Nat × Nat × List Char × List Char)
  | [] => some (column, max widest column, ends, [])
  | c :: rest =>
    let inIndentation := indent.all (column < ·)
    if c = ' ' && inIndentation then emptyLines? indent (column + 1) widest ends rest
    else if c = '\t' && inIndentation then none
    else if isBreak c then emptyLines? indent 0 (max widest column) (ends ++ [c]) rest
    else some (column, max widest column, ends, c :: rest)

/-- The line ends behind a line of a block. -/
structure LineEnds where
  first : List Char := []
  /-- Those of empty lines. -/
  further : List Char := []
  /-- The line starts with a blank, and is therefore never joined with others. -/
  followsBlank : Bool := false

/-- What stands between a line of a block and the next one. -/
def LineEnds.text (ends : LineEnds) (isFolded beforeBlank : Bool) : List Char :=
  if isFolded && ends.first = ['\n'] && !ends.followsBlank && !beforeBlank then
    if ends.further.isEmpty then [' '] else ends.further
  else ends.first ++ ends.further

/-- The line ends that chomping leaves. -/
def LineEnds.chomped (ends : LineEnds) : Chomping → List Char
  | .strip => []
  | .clip => ends.first
  | .keep => ends.first ++ ends.further

/-- At most `bound` lines of a block with the given indentation. -/
def blockLines? (isFolded : Bool) (chomping : Chomping) (indent : Nat) :
    Nat → Nat → LineEnds → List Char → Option (List Char × List Char)
  | 0, _, _, _ => none
  | bound + 1, column, ends, cs => do
    if column = indent && !cs.isEmpty then
      let startsBlank := cs.head?.any isBlank
      let line := cs.takeWhile (!isBreak ·)
      let rest := cs.dropWhile (!isBreak ·)
      let (column, _, further, next) ← emptyLines? (some indent) 0 0 [] rest.tail
      let (lines, rest) ← blockLines? isFolded chomping indent bound column
        ⟨rest.take 1, further, startsBlank⟩ next
      return (ends.text isFolded startsBlank ++ line ++ lines, rest)
    else return (ends.chomped chomping, cs)

/-- A block scalar behind its indicator, inside a mapping in column `outer`. Unless the header
tells the indentation of its lines, the first line that is not empty does. -/
def block? (isFolded : Bool) (outer : Option Nat) (cs : List Char) :
    Option (List Char × List Char) := do
  let (chomping, told, rest) ← blockHeader? cs
  let told := told.map (outer.getD 0 + ·)
  let (column, widest, ends, next) ← emptyLines? told 0 0 [] rest
  let indent := told.getD (max widest (outer.getD 0 + 1))
  blockLines? isFolded chomping indent (cs.length + 1) column { further := ends } next

end Regression.Yaml
