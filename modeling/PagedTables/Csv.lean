namespace PagedTables.Csv

/-- Where reading stands within a record. -/
inductive Place where
  | recordStart
  | fieldStart
  | plain
  | quoted
  /-- After a quote inside quotes: the end of the quotes, or the first half of a doubled quote. -/
  | quoteSeen

/-- What was read so far, everything last first. -/
structure Reader where
  place : Place := .recordStart
  field : List UInt8 := []
  record : List (List UInt8) := []
  records : List (List (List UInt8)) := []

abbrev comma : UInt8 := 44

abbrev quote : UInt8 := 34

def isLineEnd (b : UInt8) : Bool := b = 10 || b = 13

namespace Reader

def take (r : Reader) (b : UInt8) (place : Place) : Reader :=
  { r with field := b :: r.field, place }

def endField (r : Reader) : Reader :=
  { r with field := [], record := r.field.reverse :: r.record, place := .fieldStart }

def endRecord (r : Reader) : Reader :=
  let r := r.endField
  { r with record := [], records := r.record.reverse :: r.records, place := .recordStart }

/-- After a field that may end here; `quotes` says what a quote does. -/
def unquoted (r : Reader) (b : UInt8) (quotes : Place → Reader) : Reader :=
  if b = comma then r.endField
  else if isLineEnd b then r.endRecord
  else if b = quote then quotes .quoted
  else r.take b .plain

/-- Empty lines are passed over. A quote counts at the start of a field and inside quotes only. -/
def step (r : Reader) (b : UInt8) : Reader :=
  match r.place with
  | .recordStart =>
    if isLineEnd b then r else r.unquoted b (fun place => { r with place })
  | .fieldStart => r.unquoted b (fun place => { r with place })
  | .plain => r.unquoted b (fun _ => r.take b .plain)
  | .quoted => if b = quote then { r with place := .quoteSeen } else r.take b .quoted
  | .quoteSeen => r.unquoted b (fun place => r.take b place)

def finish (r : Reader) : List (List (List UInt8)) :=
  match r.place with
  | .recordStart => r.records.reverse
  | _ => r.endRecord.records.reverse

end Reader

/-- A mark of the byte order at the very start is no content. -/
def withoutMark : List UInt8 → List UInt8
  | 0xef :: 0xbb :: 0xbf :: rest => rest
  | bytes => bytes

/-- The records of a file, each a list of fields. -/
def records (bytes : List UInt8) : List (List (List UInt8)) :=
  ((withoutMark bytes).foldl Reader.step {}).finish

inductive Fault where
  | notUtf8
  | unequalLengths (expected actual : Nat)
deriving DecidableEq

/-- The first record names the columns. -/
structure Table where
  header : List String
  rows : List (List String)
deriving DecidableEq

def fieldText (bytes : List UInt8) : Except Fault String :=
  match String.fromUTF8? (ByteArray.mk bytes.toArray) with
  | some s => .ok s
  | none => .error .notUtf8

def recordText : List (List UInt8) → Except Fault (List String)
  | [] => .ok []
  | field :: fields => do
    let s ← fieldText field
    let rest ← recordText fields
    return s :: rest

/-- Each record is counted before its text is looked at. -/
def rowTexts (width : Nat) : List (List (List UInt8)) → Except Fault (List (List String))
  | [] => .ok []
  | record :: records => do
    if record.length ≠ width then throw (.unequalLengths width record.length)
    let row ← recordText record
    let rows ← rowTexts width records
    return row :: rows

def table (bytes : List UInt8) : Except Fault Table :=
  match records bytes with
  | [] => .ok ⟨[], []⟩
  | header :: records => do
    let names ← recordText header
    let rows ← rowTexts header.length records
    return ⟨names, rows⟩

end PagedTables.Csv
