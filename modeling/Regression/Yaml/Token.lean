import Regression.Yaml.Scalar

/-!
# Tokens of YAML documents

Besides scalars and the marks of mappings a document has anchors, aliases and tags at its nodes
and directives in front. `Directive.read?`, `anchorName?` and `Tag.read?` read these.

There are no tokens for lists: documents with lists are refused.
-/

namespace Regression.Yaml

/-- The kind of a node, as it is written: a handle that stands for some text, and the rest. -/
structure Tag where
  handle : String
  suffix : String
  deriving DecidableEq, Repr, Inhabited

inductive Directive where
  | version (major minor : Nat)
  /-- What a handle of tags stands for. -/
  | handle (handle text : String)
  deriving DecidableEq, Repr, Inhabited

inductive Token where
  | directive (d : Directive)
  | documentStart
  | documentEnd
  /-- The start of a mapping that is laid out in lines. -/
  | blockStart
  | blockEnd
  /-- The start of a mapping in braces. -/
  | flowStart
  | flowEnd
  | comma
  | key
  | value
  | anchor (name : String)
  | alias (name : String)
  | tag (t : Tag)
  | scalar (style : ScalarStyle) (text : String)
  deriving DecidableEq, Repr, Inhabited

/-! ## Anchors and tags -/

/-- The name of an anchor or alias, and what follows it. -/
def anchorName? (cs : List Char) : Option (String × List Char) :=
  let name := cs.takeWhile isNameChar
  let rest := cs.dropWhile isNameChar
  if name.isEmpty || !(atSpacing rest || rest.head?.any ("?:,]\x7d%@`".contains ·)) then none
  else some (String.ofList name, rest)

def isTagChar (c : Char) : Bool := isNameChar c || ";/?:@&=+$.%!~*'()".contains c

/-- Tags between angle brackets and the texts of handles have these characters as well. -/
def isVerbatimChar (c : Char) : Bool := isTagChar c || c == ',' || c == '[' || c == ']'

/-- The number of bytes of the character that starts with a byte. -/
def encodedLength? (first : Nat) : Option Nat :=
  if first < 0x80 then some 1
  else if first < 0xC0 then none
  else if first < 0xE0 then some 2
  else if first < 0xF0 then some 3
  else if first < 0xF8 then some 4
  else none

/-- A byte that is written as a percent sign and two digits. -/
def percentByte? : List Char → Option (Nat × List Char)
  | '%' :: a :: b :: rest => (Text.natural? 16 [a, b]).map fun n => (n, rest)
  | _ => none

/-- The character whose bytes are written with percent signs at the start of a text, and the length
of its spelling. -/
def percentChar? (cs : List Char) : Option (Char × Nat) := do
  let (first, rest) ← percentByte? cs
  match ← encodedLength? first with
  | 1 => return (.ofNat first, 3)
  | count =>
    let start := first % Nat.pow 2 (7 - count)
    let (n, _) ← (List.range (count - 1)).foldlM (fun (n, rest) _ => do
      let (byte, rest) ← percentByte? rest
      if byte / 64 = 2 then some (64 * n + byte % 64, rest) else none) (start, rest)
    return (.ofNat n, 3 * count)

/-- The characters of a kind at the start of a text, spelled out, after a number of characters that
were dealt with already. -/
def tagText? (isMember : Char → Bool) : Nat → List Char → Option (List Char × List Char)
  | _, [] => some ([], [])
  | skipped + 1, _ :: rest => tagText? isMember skipped rest
  | 0, c :: rest =>
    if !isMember c then some ([], c :: rest)
    else
      match if c = '%' then percentChar? (c :: rest) else some (c, 1) with
      | none => none
      | some (c, length) =>
        (tagText? isMember (length - 1) rest).map fun (cs, next) => (c :: cs, next)

/-- A handle: an exclamation mark, or a name between two of them. A name that no second mark
follows is not part of a handle. -/
def handle? : List Char → Option (String × List Char)
  | '!' :: rest =>
    match rest.dropWhile isNameChar with
    | '!' :: next => some ("!" ++ String.ofList (rest.takeWhile isNameChar) ++ "!", next)
    | _ => some ("!", rest)
  | _ => none

/-- A tag, and what follows it. The exclamation mark alone is a tag without a handle. -/
def Tag.read? (inFlow : Bool) (cs : List Char) : Option (Tag × List Char) := do
  let (tag, rest) ← match cs with
    | '!' :: '<' :: rest => do
      let (text, rest) ← tagText? isVerbatimChar 0 rest
      match rest with
      | '>' :: rest => if text.isEmpty then none else some (⟨"", String.ofList text⟩, rest)
      | _ => none
    | _ => do
      let (handle, rest) ← handle? cs
      let (text, rest) ← tagText? isTagChar 0 rest
      if !text.isEmpty then some (⟨handle, String.ofList text⟩, rest)
      else if handle = "!" then some (⟨"", "!"⟩, rest)
      else none
  if atSpacing rest || (inFlow && rest.head? == some ',') then some (tag, rest) else none

/-! ## Directives -/

/-- A part of a version number. -/
def versionPart? (cs : List Char) : Option (Nat × List Char) := do
  let digits := cs.takeWhile Char.isDigit
  let n ← Text.natural? 10 digits
  if digits.length ≤ 9 then some (n, cs.dropWhile Char.isDigit) else none

/-- A directive behind its percent sign, without its line end. -/
def Directive.read? (cs : List Char) : Option (Directive × List Char) := do
  let name := String.ofList (cs.takeWhile isNameChar)
  let rest := cs.dropWhile isNameChar
  let arguments := rest.dropWhile isBlank
  let (directive, rest) ← match name with
    | "YAML" => do
      let (major, rest) ← versionPart? arguments
      match rest with
      | '.' :: rest => (versionPart? rest).map fun (minor, rest) => (version major minor, rest)
      | _ => none
    | "TAG" => do
      let (name, rest) ← handle? arguments
      if !rest.head?.any isBlank then none
      else
        let (text, rest) ← tagText? isVerbatimChar 0 (rest.dropWhile isBlank)
        if text.isEmpty || !atSpacing rest then none
        else some (handle name (String.ofList text), rest)
    | _ => none
  let rest := rest.dropWhile isBlank
  let rest := if rest.head? == some '#' then rest.dropWhile (!isBreak ·) else rest
  if rest.head?.all isBreak then some (directive, rest.tail) else none

end Regression.Yaml
