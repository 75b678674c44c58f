import Regression.Classification
import Regression.Timestamp.Reader

/-!
# Failures of a result store
-/

namespace Regression

inductive StorageErrorKind where
  /-- The database itself failed. -/
  | database
  /-- A stored value has no meaning. -/
  | decode
  /-- A record contradicts itself and was refused. -/
  | invalidRecord
  | io
  deriving DecidableEq, Repr, Inhabited

def StorageErrorKind.name : StorageErrorKind → String
  | .database => "database"
  | .decode => "decode"
  | .invalidRecord => "invalid_record"
  | .io => "io"

inductive StorageError where
  | unknownClassification (name : String)
  | unknownStatus (name : String)
  /-- A partition with a classification of whole runs. -/
  | runLevelPartition (partition : UInt32) (result : Classification)
  /-- A record classified as an error that does not say which. -/
  | missingErrorText (what : String)
  /-- A column, counted from 0, whose text could not be decoded. -/
  | badColumn (column : Nat) (cause : StorageError)
  /-- A column, counted from 0, whose value is of the wrong kind. -/
  | wrongType (column : Nat) (name kind : String)
  /-- A column, counted from 0, whose text is not a point in time. -/
  | badTimestamp (column : Nat) (fault : TimestampFault)
  /-- A column that must have a value. -/
  | nullColumn (table name : String)
  /-- The file of a database cannot be opened. -/
  | cannotOpen (path : String)
  /-- A failure of some kind that is reported by a backend. -/
  | reported (kind : StorageErrorKind) (message : String)
  deriving DecidableEq, Repr, Inhabited

namespace StorageError

def kind : StorageError → StorageErrorKind
  | .unknownClassification _ | .unknownStatus _ => .decode
  | .runLevelPartition .. | .missingErrorText _ => .invalidRecord
  | .badColumn .. | .wrongType .. | .badTimestamp .. | .nullColumn .. | .cannotOpen _ => .database
  | .reported kind _ => kind

def text : StorageError → String
  | .unknownClassification name => "Unknown classification '" ++ name ++ "'"
  | .unknownStatus name => "Unknown solver status '" ++ name ++ "'"
  | .runLevelPartition partition result =>
    "Partition " ++ toString partition.toNat ++ " cannot be classified as " ++ result.name
  | .missingErrorText what => what ++ " classified as ERROR must carry error text"
  | .badColumn column cause =>
    "SQLite error: Conversion error from type Text at index: " ++ toString column ++ ", [" ++
      cause.kind.name ++ "] " ++ text cause
  | .wrongType column name kind =>
    "SQLite error: Invalid column type " ++ kind ++ " at index: " ++ toString column ++
      ", name: " ++ name
  | .badTimestamp column fault =>
    "SQLite error: Conversion error from type Text at index: " ++ toString column ++ ", " ++
      fault.message
  | .nullColumn table name => "SQLite error: NOT NULL constraint failed: " ++ table ++ "." ++ name
  | .cannotOpen path => "SQLite error: unable to open database file: " ++ path
  | .reported _ message => message

def message (e : StorageError) : String := "[" ++ e.kind.name ++ "] " ++ e.text

/-- A failure of the database. -/
def database (message : String) : StorageError := .reported .database message

/-- A file that holds something else than a database. -/
def notDatabase : StorageError := .database "SQLite error: file is not a database"

end StorageError

/-- The classification with a given name. -/
def Classification.parse (name : String) : Except StorageError Classification :=
  match ofName? name with
  | some c => .ok c
  | none => .error (.unknownClassification name)

def Status.parse (name : String) : Except StorageError Status :=
  match ofName? name with
  | some s => .ok s
  | none => .error (.unknownStatus name)

end Regression
