namespace PagedTables

/-- Why a file cannot be read. -/
inductive FileError where
  | notFound
  | denied
  | isDirectory
  | notDirectory
  | nameTooLong
  | nulInName
  | notUtf8
  /-- Another error of the system, with its text. -/
  | other (text : String)
deriving DecidableEq

def FileError.message : FileError → String
  | notFound => "No such file or directory (os error 2)"
  | denied => "Permission denied (os error 13)"
  | isDirectory => "Is a directory (os error 21)"
  | notDirectory => "Not a directory (os error 20)"
  | nameTooLong => "File name too long (os error 36)"
  | nulInName => "file name contained an unexpected NUL byte"
  | notUtf8 => "stream did not contain valid UTF-8"
  | other text => text

/-- What reading the file under each path gives. -/
structure Files where
  read : String → Except FileError ByteArray

namespace Files

def readText (files : Files) (path : String) : Except FileError String :=
  match files.read path with
  | .error e => .error e
  | .ok bytes =>
    match String.fromUTF8? bytes with
    | some s => .ok s
    | none => .error .notUtf8

end Files

end PagedTables
