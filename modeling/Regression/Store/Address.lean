import Regression.Files
import Regression.Text.Digits

/-!
# Where a result database is

A result database is told by the path of its file, by `:memory:`, or by an address that starts with
`file:`. In an address, `//` and a host may stand before the path, and settings behind it: `?`
before the first, `&` between them, and `=` before the value of each. Nothing behind `#` counts. A
percent sign and two hexadecimal digits stand for a byte, but never for one of these signs.
-/

namespace Regression

/-- Where a result database is kept. -/
inductive StoreAddress where
  /-- In no file: the database goes with the one who opened it. -/
  | memory
  /-- In a file, which may be made if there is none. -/
  | file (path : String) (canMake : Bool)
  deriving DecidableEq, Repr, Inhabited

namespace StoreAddress

/-! ## Addresses -/

/-- The bytes that a part of an address stands for. A zero byte ends them. -/
def bytesOf : List Char → List UInt8
  | '%' :: c :: d :: rest =>
    match Text.natural? 16 [c, d] with
    | some 0 => []
    | some n => .ofNat n :: bytesOf rest
    | none => 37 :: bytesOf (c :: d :: rest)
  | c :: rest => String.utf8EncodeChar c ++ bytesOf rest
  | [] => []

/-- The text that a part of an address stands for. Bytes that are no text are taken one by one. -/
def decoded (part : List Char) : String :=
  let bytes := bytesOf part
  (String.fromUTF8? ⟨bytes.toArray⟩).getD (String.ofList (bytes.map fun b => .ofNat b.toNat))

/-- The parts of a text before and behind a character. There may be nothing behind. -/
def splitAt (c : Char) (cs : List Char) : List Char × List Char :=
  (Text.splitFirst? [c] cs).getD (cs, [])

/-- A setting of an address, with its value. -/
abbrev Setting := String × String

/-- The path and the settings of an address without its scheme. Only the host that holds the files
can be named, and a setting without a name does not count. -/
def partsOf? (address : List Char) : Option (String × List Setting) := do
  let address ← match address with
    | '/' :: '/' :: rest =>
      let host := String.ofList (rest.takeWhile (· ≠ '/'))
      if host = "" || host = "localhost" then some (rest.dropWhile (· ≠ '/')) else none
    | _ => some address
  let (path, settings) := splitAt '?' (splitAt '#' address).1
  let settings := (Text.pieces "&" (String.ofList settings)).map fun setting =>
    let (name, value) := splitAt '=' setting.toList
    (decoded name, decoded value)
  return (decoded path, settings.filter (·.1 ≠ ""))

/-! ## Settings -/

/-- What may be done with a database. -/
inductive Access where
  | read
  | write
  /-- Write, and make the file. -/
  | make
  | memory
  deriving DecidableEq, Repr

/-- Every access includes those of smaller rank. -/
def Access.rank : Access → Nat
  | .read => 0
  | .write => 1
  | .make => 2
  | .memory => 3

/-- The access that the setting `mode` asks for. -/
def Access.ofName? : String → Option Access
  | "ro" => some .read
  | "rw" => some .write
  | "rwc" => some .make
  | "memory" => some .memory
  | _ => none

/-- The access behind some settings. A setting can only take something from the access, but every
database can be put into memory. -/
def accessOf? (access : Access) : List Setting → Option Access
  | [] => some access
  | ("mode", value) :: rest => do
    let next ← Access.ofName? value
    if next = .memory || next.rank ≤ access.rank then accessOf? next rest else none
  | ("cache", value) :: rest =>
    if value = "shared" || value = "private" then accessOf? access rest else none
  | _ :: rest => accessOf? access rest

/-- The file systems that store a database in files. -/
def fileSystems : List String := ["unix", "unix-none", "unix-dotfile", "unix-excl"]

/-- Whether the value of a setting means yes. -/
def isYes (value : String) : Bool :=
  match Text.natural? 10 (value.toList.takeWhile Char.isDigit) with
  | some n => n % 256 ≠ 0
  | none => ["on", "yes", "true"].contains value.toLower

/-- The database with the given settings. One that cannot be written to is of no use. -/
def ofParts? (path : String) (settings : List Setting) : Option StoreAddress := do
  let access ← accessOf? .make settings
  let fileSystem := (settings.reverse.find? (·.1 = "vfs")).map (·.2)
  let isInMemory := fileSystem = some "memdb"
  let isNamed := access ≠ .memory && path ≠ "" && path ≠ ":memory:"
  let isFrozen := isNamed && (settings.find? (·.1 = "immutable")).any fun s => isYes s.2
  if !(isInMemory || fileSystem.all fileSystems.contains) then none
  else if access = .read || isFrozen then none
  else if isNamed && !isInMemory then some (.file path (access = .make))
  else some .memory

/-- Read what tells of a result database. -/
def parse? (address : String) : Option StoreAddress :=
  match Text.dropStart? "file:" address with
  | some rest => do
    let (path, settings) ← partsOf? rest.toList
    ofParts? path settings
  | none => ofParts? address []

end StoreAddress

/-! ## Files of databases -/

/-- The place of a database. The pieces of its path are resolved one by one, and `..` takes back the
piece before it, whether or not that is a directory. No piece may lead below a plain file or have a
name that is too long. -/
def Files.resolve (t : Files) (place : Place) : List String → Except FileError Place
  | [] => .ok place
  | piece :: rest =>
    let next := place.step piece
    match t.follow [] next with
    | .ok _ | .error .notFound => t.resolve next rest
    | .error e => .error e

namespace FileWork

/-- The text of the file at a place, which may be made if there is none. -/
def openAt (place : Place) (canMake : Bool) : FileWork String := do
  let t ← get
  match t.follow [] place with
  | .ok (_, .file text) => return text
  | .ok (_, .directory) => throw .isDirectory
  | .error e =>
    if e ≠ .notFound || !canMake then throw e
    match ← t.follow [] place.dropLast with
    | (_, .file _) => throw .notDirectory
    | (_, .directory) =>
      modify (·.set place (.file ""))
      return ""

/-- The place and the text of the file of a database. -/
def openPath (path : String) (canMake : Bool) : FileWork (Place × String) := do
  let place ← (← get).resolve (Place.startOf path) (pathPieces path)
  return (place, ← openAt place canMake)

end FileWork

end Regression
