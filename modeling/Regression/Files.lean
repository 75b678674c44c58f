import Regression.Text.Search

/-!
# File trees

The working directory and what is below it: plain files with their text, and directories. A path is
followed piece by piece: empty and `.` pieces stay where they are, and `..` goes up. Every step has
to start from a directory. The directories above the working directory and the root of all paths
exist, but nothing else is known to be outside.

The length of a name is limited, and so is the length of a path. A name that is too long is noticed
only where a directory is searched for it; a path that is too long leads nowhere from the start.
-/

namespace Regression

inductive FileError where
  | notFound
  | denied
  | exists
  | notDirectory
  | isDirectory
  | nameTooLong
  /-- A path with a zero character in it. -/
  | zeroCharacter
  deriving DecidableEq, Repr, Inhabited

namespace FileError

def message : FileError → String
  | .notFound => "No such file or directory (os error 2)"
  | .denied => "Permission denied (os error 13)"
  | .exists => "File exists (os error 17)"
  | .notDirectory => "Not a directory (os error 20)"
  | .isDirectory => "Is a directory (os error 21)"
  | .nameTooLong => "File name too long (os error 36)"
  | .zeroCharacter => "file name contained an unexpected NUL byte"

/-- Whether it tells that a path leads nowhere. -/
def isMissing : FileError → Bool
  | .notFound | .notDirectory | .nameTooLong | .zeroCharacter => true
  | .denied | .exists | .isDirectory => false

end FileError

/-! ## Paths -/

/-- A path continued by another one; an absolute one stands for itself. -/
def joinPath (path part : String) : String :=
  if part.toList.head? == some '/' then part
  else if path.isEmpty || path.toList.getLast? == some '/' then path ++ part
  else path ++ "/" ++ part

/-- The pieces of a path. -/
def pathPieces (path : String) : List String := Text.pieces "/" path

/-- The path without its last piece. -/
def directoryOf (path : String) : String := "/".intercalate (pathPieces path).dropLast

/-- A name has at most 255 bytes. -/
def isLongName (name : String) : Bool := 255 < name.utf8ByteSize

/-- Why a path leads nowhere, whatever files there are. It has at most 4095 bytes. -/
def pathFault? (path : String) : Option FileError :=
  if path.toList.contains '\x00' then some .zeroCharacter
  else if 4095 < path.utf8ByteSize then some .nameTooLong
  else if path.isEmpty then some .notFound
  else none

/-! ## Places -/

/-- The names that lead to a place from the working directory. -/
abbrev Place := List String

namespace Place

/-- The root of absolute paths. -/
def root : Place := ["/"]

/-- Where a path starts. -/
def startOf (path : String) : Place := if path.toList.head? == some '/' then root else []

/-- Whether a place is the working directory, above it, or the root. -/
def isOnTop (place : Place) : Bool := place = root || place.all (· = "..")

/-- The place that a piece of a path leads to from another place. -/
def step (place : Place) (piece : String) : Place :=
  if piece = "" || piece = "." then place
  else if piece ≠ ".." then place ++ [piece]
  else if place = root then place
  else if place.isOnTop then place ++ [".."]
  else place.dropLast

end Place

/-! ## Trees -/

inductive FileEntry where
  | file (text : String)
  | directory
  deriving DecidableEq, Repr, Inhabited

/-- The entries with their places. -/
structure Files where
  entries : List (Place × FileEntry) := []
  deriving Repr, Inhabited

namespace Files

def empty : Files := {}

/-- The entry at a place. -/
def entry? (t : Files) (place : Place) : Option FileEntry :=
  if place.isOnTop then some .directory
  else (t.entries.find? (·.1 = place)).map (·.2)

def set (t : Files) (place : Place) (entry : FileEntry) : Files :=
  ⟨(place, entry) :: t.entries.filter (·.1 ≠ place)⟩

def erase (t : Files) (place : Place) : Files := ⟨t.entries.filter (·.1 ≠ place)⟩

/-- Follow the pieces of a path from a place: where they lead, and what is there. -/
def follow (t : Files) (place : Place) : List String → Except FileError (Place × FileEntry)
  | [] =>
    match t.entry? place with
    | some entry => .ok (place, entry)
    | none => .error .notFound
  | piece :: rest =>
    match t.entry? place with
    | some .directory =>
      if isLongName piece then .error .nameTooLong else t.follow (place.step piece) rest
    | some (.file _) => .error .notDirectory
    | none => .error .notFound

/-- What is at a path. -/
def lookup (t : Files) (path : String) : Except FileError (Place × FileEntry) :=
  match pathFault? path with
  | some e => .error e
  | none => t.follow (Place.startOf path) (pathPieces path)

/-- Whether something is at a path. -/
def has (t : Files) (path : String) : Bool := (t.lookup path).isOk

/-- The text of a file. -/
def read (t : Files) (path : String) : Except FileError String := do
  match ← t.lookup path with
  | (_, .file text) => return text
  | (_, .directory) => throw .isDirectory

/-- The plain files below a directory, with their paths from there. -/
def below (t : Files) (directory : String) : List (String × String) :=
  t.entries.filterMap fun (place, entry) =>
    match entry, place with
    | .file text, first :: second :: rest =>
      if first = directory then some ("/".intercalate (second :: rest), text) else none
    | _, _ => none

end Files

/-! ## Work on files -/

/-- Work on files. What was done before an error stays done. -/
abbrev FileWork := ExceptT FileError (StateM Files)

namespace FileWork

/-- Do some work: how it ends, and the files behind it. -/
def on {α : Type} (work : FileWork α) (t : Files) : Except FileError α × Files :=
  (ExceptT.run work).run t

/-- Make the directories on a path that do not exist, from a place on. -/
def makeFrom (place : Place) : List String → FileWork Unit
  | [] => return ()
  | piece :: rest => do
    if isLongName piece then throw .nameTooLong
    let next := place.step piece
    let t ← get
    match t.entry? next with
    | none => set (t.set next .directory)
    | some .directory => pure ()
    | some (.file _) => throw (if rest.isEmpty then .exists else .notDirectory)
    makeFrom next rest

/-- Make a directory and all directories on the way to it. -/
def makeDirectories (path : String) : FileWork Unit :=
  match pathFault? path with
  | some .notFound => return ()
  | some e => throw e
  | none => makeFrom (Place.startOf path) (pathPieces path)

/-- Set the text of a file whose directory exists. -/
def write (path text : String) : FileWork Unit := do
  if let some e := pathFault? path then throw e
  let pieces := pathPieces path
  let name := pieces.getLast?.getD ""
  let t ← get
  match ← t.follow (Place.startOf path) pieces.dropLast with
  | (_, .file _) => throw .notDirectory
  | (directory, .directory) =>
    if isLongName name then throw .nameTooLong
    let place := Place.step directory name
    match t.entry? place with
    | some .directory => throw .isDirectory
    | _ => modify (·.set place (.file text))

/-- Set the text of a file, and make its directory if it does not exist. -/
def create (path text : String) : FileWork Unit := do
  makeDirectories (directoryOf path)
  write path text

/-- Add to the end of a file, which is made if it does not exist. -/
def append (path text : String) : FileWork Unit := do
  let old := ((← get).read path).toOption.getD ""
  write path (old ++ text)

/-- Remove a plain file. -/
def remove (path : String) : FileWork Unit := do
  match ← (← get).lookup path with
  | (place, .file _) => modify (·.erase place)
  | (_, .directory) => throw .isDirectory

end FileWork

/-- The tree with some files, given by their paths. -/
def Files.ofTexts (texts : List (String × String)) : Files :=
  texts.foldl (fun t (path, text) => ((FileWork.create path text).on t).2) empty

end Regression
