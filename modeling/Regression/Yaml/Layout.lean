import Regression.Yaml.Token

/-!
# The layout of YAML documents

A mapping that is laid out in lines has no brackets: it lasts while lines start in its column or to
the right of it. And a key is known as such only by the colon behind it. So the tokens of a
document are collected with a memory for both: the columns of the mappings that are open, and the
place of the last text that may turn out to be a key. When the colon comes, the mark of the key,
and where needed the start of its mapping, are put in front of that text.

A key that has a colon behind it stands on one line with it and is not longer than 1024 characters.
-/

namespace Regression.Yaml

/-- A place in a document. -/
structure Cursor where
  rest : List Char
  /-- The number of characters passed. -/
  index : Nat := 0
  line : Nat := 0
  column : Nat := 0

namespace Cursor

def next (c : Cursor) : Cursor :=
  match c.rest with
  | [] => c
  | char :: rest =>
    if isBreak char then ⟨rest, c.index + 1, c.line + 1, 0⟩
    else ⟨rest, c.index + 1, c.line, c.column + 1⟩

def skip (c : Cursor) (count : Nat) : Cursor := count.repeat next c

/-- Move to where a text that follows begins. -/
def moveTo (c : Cursor) (rest : List Char) : Cursor := c.skip (c.rest.length - rest.length)

end Cursor

/-- A text that a colon may turn into a key. -/
structure PossibleKey where
  /-- The number of tokens in front of it. -/
  place : Nat
  start : Cursor
  /-- It starts a line of a mapping and so has to be a key. -/
  isRequired : Bool

/-- No colon can make a key of the text any more. -/
def PossibleKey.isStale (k : PossibleKey) (c : Cursor) : Bool :=
  k.start.line < c.line || k.start.index + 1024 < c.index

structure Layout where
  cursor : Cursor
  tokens : Array Token := #[]
  /-- The columns of the open mappings that are laid out in lines, innermost first. -/
  columns : List Nat := []
  key : Option PossibleKey := none
  /-- The possible keys around each open mapping in braces, innermost first. -/
  outerKeys : List (Option PossibleKey) := []
  /-- The next text may be a key. -/
  keyAllowed : Bool := true

namespace Layout

def inFlow (l : Layout) : Bool := !l.outerKeys.isEmpty

def push (l : Layout) (t : Token) : Layout := { l with tokens := l.tokens.push t }

/-- Add a token that is written with so many characters. -/
def pushSkip (l : Layout) (t : Token) (count : Nat) : Layout :=
  { l.push t with cursor := l.cursor.skip count }

/-- Add a token that ends where the rest begins. -/
def pushTo (l : Layout) (t : Token) (rest : List Char) : Layout :=
  { l.push t with cursor := l.cursor.moveTo rest }

/-- Give up the possible key. -/
def forgetKey (l : Layout) : Option Layout :=
  if l.key.any (·.isRequired) then none else some { l with key := none }

/-- Remember that a key may start here. -/
def rememberKey (l : Layout) : Option Layout := do
  if !l.keyAllowed then return l
  let l ← l.forgetKey
  let isRequired := !l.inFlow && l.columns.head? == some l.cursor.column
  return { l with key := some ⟨l.tokens.size, l.cursor, isRequired⟩ }

/-- Drop a possible key that the cursor has left behind. -/
def fresh? (c : Cursor) (k : Option PossibleKey) : Option (Option PossibleKey) :=
  match k with
  | some k => if !k.isStale c then some (some k) else if k.isRequired then none else some none
  | none => some none

def dropStale (l : Layout) : Option Layout := do
  let key ← fresh? l.cursor l.key
  let outerKeys ← l.outerKeys.mapM (fresh? l.cursor)
  return { l with key, outerKeys }

/-- Open a mapping in a column at a place among the tokens, unless one is open there. -/
def openBlock (l : Layout) (column place : Nat) : Layout :=
  if l.inFlow || !l.columns.head?.all (· < column) then l
  else
    { l with
      columns := column :: l.columns
      tokens := l.tokens.insertIdxIfInBounds place .blockStart }

/-- Close the mappings in the columns of a kind. -/
def closeBlocks (l : Layout) (ends : Nat → Bool) : Layout :=
  if l.inFlow then l
  else
    let closed := l.columns.takeWhile ends
    { l with
      columns := l.columns.dropWhile ends
      tokens := l.tokens ++ closed.map fun _ => Token.blockEnd }

def closeAllBlocks (l : Layout) : Layout := l.closeBlocks fun _ => true

/-- What follows white space and comments, and whether a key may come there. A tab is white space
only where no key may come, and in a flow. -/
def skipSpacing (inFlow : Bool) : Bool → Bool → Nat → List Char → List Char × Bool
  | keyAllowed, _, _, [] => ([], keyAllowed)
  | keyAllowed, inComment, column, c :: rest =>
    if isBreak c then skipSpacing inFlow (keyAllowed || !inFlow) false 0 rest
    else if inComment then skipSpacing inFlow keyAllowed true (column + 1) rest
    else if c = ' ' || (c = '\t' && (inFlow || !keyAllowed)) ||
        (c = byteOrderMark && column = 0) then
      skipSpacing inFlow keyAllowed false (column + 1) rest
    else if c = '#' then skipSpacing inFlow keyAllowed true (column + 1) rest
    else (c :: rest, keyAllowed)

/-- Move to the next token and close the mappings that end in front of it. -/
def toNextToken (l : Layout) : Option Layout := do
  let (rest, keyAllowed) := skipSpacing l.inFlow l.keyAllowed false l.cursor.column l.cursor.rest
  let l ← { l with cursor := l.cursor.moveTo rest, keyAllowed }.dropStale
  return l.closeBlocks (l.cursor.column < ·)

/-! ## Tokens in their places -/

/-- A directive or the mark of a document, which ends all mappings. -/
def atDocumentLevel (l : Layout) (t : Token) (rest : List Char) : Option Layout := do
  let l ← l.closeAllBlocks.forgetKey
  return { l.pushTo t rest with keyAllowed := false }

def openFlow (l : Layout) : Option Layout := do
  let l ← l.rememberKey
  return { l.pushSkip .flowStart 1 with
    key := none, outerKeys := l.key :: l.outerKeys, keyAllowed := true }

def closeFlow (l : Layout) : Option Layout := do
  let l ← l.forgetKey
  match l.outerKeys with
  | [] => none
  | key :: outerKeys => return { l.pushSkip .flowEnd 1 with key, outerKeys, keyAllowed := false }

def comma (l : Layout) : Option Layout := do
  let l ← l.forgetKey
  return { l.pushSkip .comma 1 with keyAllowed := true }

/-- A question mark, which announces a key. -/
def announcedKey (l : Layout) : Option Layout := do
  if !l.inFlow && !l.keyAllowed then none
  let l ← (l.openBlock l.cursor.column l.tokens.size).forgetKey
  return { l.pushSkip .key 1 with keyAllowed := !l.inFlow }

/-- The colon in front of a value. -/
def value (l : Layout) : Option Layout :=
  match l.key with
  | some k =>
    let l := { l with tokens := l.tokens.insertIdxIfInBounds k.place .key, key := none }
    let l := l.openBlock k.start.column k.place
    some { l.pushSkip .value 1 with keyAllowed := false }
  | none =>
    if !l.inFlow && !l.keyAllowed then none
    else
      let l := l.openBlock l.cursor.column l.tokens.size
      some { l.pushSkip .value 1 with keyAllowed := !l.inFlow }

/-- A token that may start a key. -/
def keyPart (l : Layout) (t : Token) (rest : List Char) : Option Layout := do
  let l ← l.rememberKey
  return { l.pushTo t rest with keyAllowed := false }

def plain (l : Layout) : Option Layout := do
  let indent := (l.columns.head?.map (· + 1)).getD 0
  let (text, rest, endsLine) ← plain? l.inFlow indent l.cursor.rest
  let l ← l.keyPart (.scalar .plain (String.ofList text)) rest
  return { l with keyAllowed := endsLine }

def quoted (l : Layout) (isSingle : Bool) (rest : List Char) : Option Layout := do
  let (text, rest) ← quoted? isSingle rest
  let style := if isSingle then ScalarStyle.singleQuoted else .doubleQuoted
  l.keyPart (.scalar style (String.ofList text)) rest

def block (l : Layout) (isFolded : Bool) (rest : List Char) : Option Layout := do
  let (text, rest) ← block? isFolded l.columns.head? rest
  let l ← l.forgetKey
  let style := if isFolded then ScalarStyle.folded else .literal
  return { l.pushTo (.scalar style (String.ofList text)) rest with keyAllowed := true }

/-- Characters that start no plain scalar. -/
def isIndicator (c : Char) : Bool := "-?:,[]\x7b\x7d#&*!|>'\"%@`".contains c

/-- Collect the token that starts with a character. -/
def step (l : Layout) (c : Char) (rest : List Char) : Option Layout :=
  let atLineStart := l.cursor.column == 0
  if atLineStart && c == '%' then do
    let (directive, rest) ← Directive.read? rest
    l.atDocumentLevel (.directive directive) rest
  else if atLineStart && startsMarker (c :: rest) then
    l.atDocumentLevel (if c = '-' then .documentStart else .documentEnd) (rest.drop 2)
  else
    match c with
    | '\x7b' => l.openFlow
    | '\x7d' => l.closeFlow
    | ',' => l.comma
    | '*' => (anchorName? rest).bind fun (name, rest) => l.keyPart (.alias name) rest
    | '&' => (anchorName? rest).bind fun (name, rest) => l.keyPart (.anchor name) rest
    | '!' => (Tag.read? l.inFlow (c :: rest)).bind fun (t, rest) => l.keyPart (.tag t) rest
    | '\'' => l.quoted true rest
    | '"' => l.quoted false rest
    | '|' => if l.inFlow then none else l.block false rest
    | '>' => if l.inFlow then none else l.block true rest
    | '?' => if l.inFlow || atSpacing rest then l.announcedKey else l.plain
    | ':' => if l.inFlow || atSpacing rest then l.value else l.plain
    | '-' => if atSpacing rest then none else l.plain
    | c => if isSpacing c || isIndicator c then none else l.plain

/-- All tokens, if there are at most `bound`. -/
def run : Nat → Layout → Option (List Token)
  | 0, _ => none
  | bound + 1, l => do
    let l ← l.toNextToken
    match l.cursor.rest with
    | [] => (← l.closeAllBlocks.forgetKey).tokens.toList
    | c :: rest => (← l.step c rest).run bound

end Layout

/-- The tokens of a document, line by line. Every token but the marks of keys and mappings takes a
character. -/
def tokens? (text : String) : Option (List Token) :=
  let cs := text.toList
  if cs.all isAllowed then
    let cs := unifyLineEnds cs
    Layout.run (cs.length + 1) { cursor := { rest := cs } }
  else none

end Regression.Yaml
