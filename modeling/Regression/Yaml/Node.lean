import Regression.Yaml.Layout

/-!
# YAML documents

A document is a tree of scalars and mappings. A node may have a tag, which tells its kind, and an
anchor, by which aliases elsewhere in the document stand for the same node.

`Document.ofText?` reads a text that holds exactly one document.
-/

namespace Regression.Yaml

structure Scalar where
  text : String
  style : ScalarStyle := .plain
  /-- The tag with its handle spelled out. -/
  tag : Option String := none
  deriving DecidableEq, Repr, Inhabited

inductive Node where
  | scalar (s : Scalar)
  | mapping (entries : List (Node × Node))
  /-- The node that an anchor was set at, by the number of the anchor. -/
  | alias (anchor : Nat)
  deriving Repr, Inhabited

structure Document where
  root : Node
  /-- The nodes with anchors. -/
  anchored : List (Nat × Node)
  deriving Repr, Inhabited

namespace Node

/-- What is left of the tokens of a document, and what its directives and anchors say. -/
structure Source where
  tokens : List Token
  handles : List (String × String) := []
  /-- The numbers of the anchors. -/
  anchors : List (String × Nat) := []
  anchored : List (Nat × Node) := []

abbrev Reader := StateT Source Option

def peek : Reader (Option Token) := return (← get).tokens.head?

/-- Pass over a token if it comes next. -/
def accept (t : Token) : Reader Bool := do
  if (← peek) != some t then return false
  modify fun s => { s with tokens := s.tokens.tail }
  return true

def expect (t : Token) : Reader Unit := do if !(← accept t) then failure

/-- Pass over a token of a kind if one comes next. -/
def accept? {α : Type} (kind : Token → Option α) : Reader (Option α) := do
  match (← peek).bind kind with
  | none => return none
  | some a =>
    modify fun s => { s with tokens := s.tokens.tail }
    return some a

/-! ## Nodes -/

/-- The node that is not written. -/
def empty : Node := .scalar { text := "" }

/-- A node, or the empty one in front of some tokens. -/
def unlessNext (ends : List Token) (node : Reader Node) : Reader Node := do
  if (← peek).any (ends.contains ·) then return empty else node

/-- At most `bound` entries of a mapping that is laid out in lines, and its end. -/
def blockEntries (node : Reader Node) : Nat → Reader (List (Node × Node))
  | 0 => failure
  | bound + 1 => do
    if ← accept .blockEnd then return []
    expect .key
    let ends := [.key, .value, .blockEnd]
    let key ← unlessNext ends node
    let hasValue ← accept .value
    let value ← if hasValue then unlessNext ends node else pure empty
    return (key, value) :: (← blockEntries node bound)

/-- At most `bound` entries of a mapping in braces, and its end. A comma stands between two
entries and may stand behind the last one. -/
def flowEntries (node : Reader Node) : Nat → Bool → Reader (List (Node × Node))
  | 0, _ => failure
  | bound + 1, isFirst => do
    if ← accept .flowEnd then return []
    if !isFirst then expect .comma
    if ← accept .flowEnd then return []
    let ends := [.comma, .flowEnd]
    let isMarked ← accept .key
    let key ← if isMarked then unlessNext (.value :: ends) node else node
    let hasValue ← if isMarked then accept .value else pure false
    let value ← if hasValue then unlessNext ends node else pure empty
    return (key, value) :: (← flowEntries node bound false)

/-- A tag with its handle spelled out. -/
def spelledOut (t : Tag) : Reader String := do
  if t.handle.isEmpty then return t.suffix
  match (← get).handles.find? (·.1 = t.handle) with
  | some (_, text) => return text ++ t.suffix
  | none => failure

def anchor? : Token → Option String
  | .anchor name => some name
  | _ => none

def tag? : Token → Option Tag
  | .tag t => some t
  | _ => none

/-- The anchor and the tag in front of a node, in either order. -/
def properties : Reader (Option String × Option Tag) := do
  match ← accept? anchor? with
  | some name => return (some name, ← accept? tag?)
  | none =>
    match ← accept? tag? with
    | some tag => return (← accept? anchor?, some tag)
    | none => return (none, none)

/-- Give an anchor its number, which is the number of names before it. -/
def number (name : String) : Reader Nat := do
  let s ← get
  let n := s.anchors.length
  set { s with anchors := (name, n) :: s.anchors.filter (·.1 ≠ name) }
  return n

/-- Set an anchor at a node. Anchors inside of the node were set after its own. -/
def anchored (name : Option String) (node : Reader Node) : Reader Node := do
  match name with
  | none => node
  | some name =>
    let n ← number name
    let before := (← get).anchored.length
    let node ← node
    modify fun s =>
      let inside := s.anchored.take (s.anchored.length - before)
      { s with anchored := inside ++ (n, node) :: s.anchored.drop inside.length }
    return node

/-- What a node is apart from its properties. A node that has any may be empty. -/
def content (node : Bool → Reader Node) (isBlock : Bool) (tag : Option String)
    (hasProperties : Bool) : Reader Node := do
  let bound := (← get).tokens.length
  match ← peek with
  | some (.scalar style text) =>
    modify fun s => { s with tokens := s.tokens.tail }
    return .scalar { text, style, tag }
  | some .flowStart =>
    expect .flowStart
    return .mapping (← flowEntries (node false) bound true)
  | next =>
    if isBlock && next == some .blockStart then
      expect .blockStart
      return .mapping (← blockEntries (node true) bound)
    else if hasProperties then return .scalar { text := "", tag }
    else failure

def alias? : Token → Option String
  | .alias name => some name
  | _ => none

/-- A node with less than `depth` mappings around each other. -/
def read : Nat → Bool → Reader Node
  | 0, _ => failure
  | depth + 1, isBlock => do
    match ← accept? alias? with
    | some name =>
      match (← get).anchors.find? (·.1 = name) with
      | some (_, n) => return .alias n
      | none => failure
    | none =>
      let (name, tag) ← properties
      let text ← tag.mapM spelledOut
      anchored name (content (read depth) isBlock text (name.isSome || tag.isSome))

end Node

namespace Document

open Node (Reader peek accept)

/-! ## Directives -/

/-- The handles that need no directive. -/
def standardHandles : List (String × String) := [("!", "!"), ("!!", "tag:yaml.org,2002:")]

/-- The directives in front of a document: at most one version, which has to be known, and no
handle twice. -/
def directives : Nat → Bool → List (String × String) → Reader (List (String × String))
  | 0, _, _ => failure
  | bound + 1, hasVersion, handles => do
    match ← Node.accept? fun | .directive d => some d | _ => none with
    | none => return handles
    | some (.version major minor) =>
      if hasVersion || major ≠ 1 || (minor ≠ 1 && minor ≠ 2) then failure
      directives bound true handles
    | some (.handle handle text) =>
      if handles.any (·.1 = handle) then failure
      directives bound hasVersion ((handle, text) :: handles)

def isDirective : Token → Bool
  | .directive _ => true
  | _ => false

/-- The only document of a text. -/
def read : Reader Node := do
  let bound := (← get).tokens.length + 1
  let next ← peek
  if next.isNone then failure
  if next.any fun t => isDirective t || t == .documentStart then
    let handles ← directives bound false []
    modify fun s => { s with handles := handles ++ standardHandles }
    Node.expect .documentStart
    if (← peek).all fun t => isDirective t || t == .documentStart || t == .documentEnd then
      return Node.empty
  else modify fun s => { s with handles := standardHandles }
  Node.read bound true

/-- Whether nothing but ends of documents is left. -/
def isAtEnd (s : Node.Source) : Bool := s.tokens.all (· == .documentEnd)

def ofText? (text : String) : Option Document := do
  let tokens ← tokens? text
  let (root, source) ← read.run { tokens }
  if isAtEnd source then return { root, anchored := source.anchored } else none

/-- The node itself, or the one that an alias stands for. -/
def resolve? (d : Document) : Node → Option Node
  | .alias n => (d.anchored.find? (·.1 = n)).map (·.2)
  | node => some node

end Document

end Regression.Yaml
