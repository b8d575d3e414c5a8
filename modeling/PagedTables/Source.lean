import PagedTables.Csv
import PagedTables.Dataset.Wire
import PagedTables.Files
import PagedTables.Path
import PagedTables.Text.Blank

namespace PagedTables

/-- How a dataset is laid out in its file. -/
inductive Format where
  /-- An object like the one that is sent to viewers. -/
  | json
  /-- A header and records; every column holds text. -/
  | csv
deriving DecidableEq

/-- Where a dataset comes from. Id and title given here replace those in the file. -/
structure Source where
  path : String
  id : Option String := none
  title : Option String := none
  format : Option Format := none
deriving DecidableEq

inductive CsvError where
  | read (e : FileError)
  | text (f : Csv.Fault)
deriving DecidableEq

inductive LoadError where
  | read (path : String) (e : FileError)
  | json (path : String) (e : ReadError)
  | csv (path : String) (e : CsvError)
  | unknownFormat (path : String)
  | ragged (path : String) (e : Ragged)
deriving DecidableEq

def ReadError.message : ReadError → String
  | text .malformed => "malformed text"
  | text .truncated => "unexpected end of text"
  | shape => "value of another shape"

def CsvError.message : CsvError → String
  | read e => e.message
  | text .notUtf8 => "invalid UTF-8"
  | text (.unequalLengths expected actual) =>
    s!"record with {actual} fields, but the header has {expected}"

def LoadError.message : LoadError → String
  | read path e => s!"read '{path}': {e.message}"
  | json path e => s!"parse json '{path}': {e.message}"
  | csv path e => s!"parse csv '{path}': {e.message}"
  | unknownFormat path => s!"cannot tell format of '{path}', set `format` explicitly"
  | ragged path e => s!"dataset '{path}': {e.message}"

namespace Format

def name : Format → String
  | json => "json"
  | csv => "csv"

def ofName? (s : String) : Option Format :=
  if s = json.name then some json else if s = csv.name then some csv else none

/-- By the extension, in capital or small letters. -/
def ofPath? (path : String) : Option Format :=
  (Path.extension? path).bind (fun extension => ofName? extension.toLower)

end Format

/-- A dataset file that is being read. A title or a number of rows that is null counts as absent. -/
structure Dataset.FileDraft where
  id : Option String := none
  title : Option (Option String) := none
  columns : Option (List Column) := none
  rowCount : Option (Option Nat) := none

namespace Dataset

/-- A dataset as its file gives it, with the title and the number of rows perhaps open. -/
structure FileContent where
  id : String
  title : Option String
  columns : List Column
  rowCount : Option Nat

namespace FileDraft

def ofKeys (draft : FileDraft) : FileContent :=
  ⟨draft.id.getD "", draft.title.getD none, draft.columns.getD [], draft.rowCount.getD none⟩

/-- In a row of values the title and the number of rows may be null, but have to be there. -/
def ofRow (draft : FileDraft) : Except ReadError FileContent := do
  let title ← Column.required draft.title
  let rowCount ← Column.required draft.rowCount
  return ⟨draft.id.getD "", title, draft.columns.getD [], rowCount⟩

end FileDraft

def fileShape : Shape FileDraft FileContent where
  fields := [
    ⟨"id", fun draft => draft.id.isSome, fun _ d draft => do
      let s ← d.text
      return { draft with id := some s }⟩,
    ⟨"title", fun draft => draft.title.isSome, fun _ d draft => do
      let s ← d.optional Document.text
      return { draft with title := some s }⟩,
    ⟨"columns", fun draft => draft.columns.isSome, fun levels d draft => do
      let columns ← d.list levels Column.read
      return { draft with columns := some columns }⟩,
    ⟨"rowCount", fun draft => draft.rowCount.isSome, fun _ d draft => do
      let n ← d.optional Document.count
      return { draft with rowCount := some n }⟩]
  start := {}
  ofKeys := fun draft => .ok draft.ofKeys
  ofRow := FileDraft.ofRow

def parseFile (text : String) : Except ReadError FileContent :=
  Json.decode (fileShape.read .ofText) text

/-- What the file leaves open: the title is `stem`, the number of rows the length of the first
column. -/
def FileContent.toDataset (c : FileContent) (stem : String) : Dataset :=
  let d := Dataset.ofColumns (c.title.getD stem) c.columns
  { d with id := c.id, rowCount := c.rowCount.getD d.rowCount }

end Dataset

namespace Csv

/-- Column by column: the name without white space around it, then one cell of text per row. -/
def Table.columns (t : Table) : List Column :=
  t.header.mapIdx (fun j name =>
    ⟨trimmed name, "string", t.rows.map (fun row => .text (row.getD j ""))⟩)

end Csv

namespace Source

def fileTitle (path : String) : String := (Path.stem? path).getD Dataset.defaultTitle

def loadJson (files : Files) (path : String) : Except LoadError Dataset := do
  let text ← (files.readText path).mapError (.read path)
  let content ← (Dataset.parseFile text).mapError (.json path)
  return content.toDataset (fileTitle path)

def loadCsv (files : Files) (path : String) : Except LoadError Dataset := do
  let bytes ← (files.read path).mapError (fun e => .csv path (.read e))
  let table ← (Csv.table bytes.toList).mapError (fun f => .csv path (.text f))
  return Dataset.ofColumns (fileTitle path) table.columns

def format? (source : Source) : Option Format :=
  match source.format with
  | some format => some format
  | none => Format.ofPath? source.path

def loadAs (files : Files) (path : String) : Format → Except LoadError Dataset
  | .json => loadJson files path
  | .csv => loadCsv files path

/-- The dataset of a file, with all columns of one length. -/
def load (files : Files) (source : Source) : Except LoadError Dataset :=
  match source.format? with
  | none => .error (.unknownFormat source.path)
  | some format => do
    let d ← loadAs files source.path format
    d.checkColumns.mapError (.ragged source.path)
    return { d with id := source.id.getD d.id, title := source.title.getD d.title }

end Source

end PagedTables
