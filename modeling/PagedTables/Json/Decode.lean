import PagedTables.Json.Scan

namespace PagedTables

namespace Document

def text : Document → Except ReadError String
  | str s => .ok s
  | d => .error d.mismatch

/-- A whole number from zero up to 64 bits, written without point or exponent. -/
def count : Document → Except ReadError Nat
  | num n =>
    match n.toNat? with
    | some k => .ok k
    | none => .error .shape
  | d => .error d.mismatch

def optional {α : Type} (read : Document → Except ReadError α) :
    Document → Except ReadError (Option α)
  | null => .ok none
  | d => (read d).map some

def each {α : Type} (read : Document → Except ReadError α) :
    List Document → Except ReadError (List α)
  | [] => .ok []
  | d :: ds => do
    let a ← read d
    let as ← each read ds
    return a :: as

def list {α : Type} (levels : Levels) (read : Levels → Document → Except ReadError α) :
    Document → Except ReadError (List α)
  | arr items stop => do
    let inner ← levels.enter
    let as ← each (read inner) items
    stopped stop
    return as
  | d => .error d.mismatch

end Document

/-- One field of a record while the record is being read. -/
structure Field (Draft : Type) where
  name : String
  isRead : Draft → Bool
  read : Levels → Document → Draft → Except ReadError Draft

/-- How a record is read, from an object by its keys or from an array by the order of its fields.
What is left out is filled in by `ofKeys` and `ofRow`. -/
structure Shape (Draft α : Type) where
  fields : List (Field Draft)
  start : Draft
  ofKeys : Draft → Except ReadError α
  ofRow : Draft → Except ReadError α

namespace Shape

variable {Draft α : Type}

/-- A known key may come once; unknown keys are passed over. -/
def readMembers (shape : Shape Draft α) (levels : Levels) :
    List (Option String × Document) → Draft → Except ReadError Draft
  | [], draft => .ok draft
  | (none, _) :: _, _ => .error (.text .malformed)
  | (some key, d) :: members, draft =>
    match shape.fields.find? (fun field => field.name = key) with
    | some field =>
      if field.isRead draft then .error .shape
      else do
        let draft ← field.read levels d draft
        shape.readMembers levels members draft
    | none => do
      d.skip
      shape.readMembers levels members draft

/-- Items beyond the last field are a fault of the text. -/
def readRow (levels : Levels) (stop : Option Break) :
    List (Field Draft) → List Document → Draft → Except ReadError Draft
  | [], [], draft => do
    Document.stopped stop
    return draft
  | [], _ :: _, _ => .error (.text .malformed)
  | _ :: _, [], draft => do
    Document.stopped stop
    return draft
  | field :: fields, d :: ds, draft => do
    let draft ← field.read levels d draft
    readRow levels stop fields ds draft

def read (shape : Shape Draft α) (levels : Levels) : Document → Except ReadError α
  | .obj members stop => do
    let inner ← levels.enter
    let draft ← shape.readMembers inner members shape.start
    Document.stopped stop
    shape.ofKeys draft
  | .arr items stop => do
    let inner ← levels.enter
    let draft ← readRow inner stop shape.fields items shape.start
    shape.ofRow draft
  | d => .error d.mismatch

end Shape

namespace Json

/-- Reads one value from a text; nothing but blanks may follow it. -/
def decode {α : Type} (read : Document → Except ReadError α) (text : String) :
    Except ReadError α := do
  let scanned := scan text
  let a ← read scanned.document
  if scanned.trailing then .error (.text .malformed) else return a

def parse (levels : Levels) (text : String) : Except ReadError Json :=
  decode (Document.value levels) text

end Json

end PagedTables
