import PagedTables.Dataset

namespace PagedTables

def Column.toJson (c : Column) : Json :=
  .obj [("data", .arr (c.cells.map Cell.clean)), ("name", .str c.name), ("type", .str c.type)]

def Dataset.toJson (d : Dataset) : Json :=
  .obj [("columns", .arr (d.columns.map Column.toJson)), ("id", .str d.id),
    ("rowCount", .count d.rowCount), ("title", .str d.title)]

namespace Column

/-- A column that is being read. -/
structure Draft where
  name : Option String := none
  type : Option String := none
  cells : Option (List Cell) := none

def required {α : Type} : Option α → Except ReadError α
  | some a => .ok a
  | none => .error .shape

/-- Only the cells may be left out. -/
def Draft.finish (draft : Draft) : Except ReadError Column := do
  let name ← required draft.name
  let type ← required draft.type
  return ⟨name, type, draft.cells.getD []⟩

def shape : Shape Draft Column where
  fields := [
    ⟨"name", fun draft => draft.name.isSome, fun _ d draft => do
      let s ← d.text
      return { draft with name := some s }⟩,
    ⟨"type", fun draft => draft.type.isSome, fun _ d draft => do
      let s ← d.text
      return { draft with type := some s }⟩,
    ⟨"data", fun draft => draft.cells.isSome, fun levels d draft => do
      let cells ← d.list levels Cell.read
      return { draft with cells := some cells }⟩]
  start := {}
  ofKeys := Draft.finish
  ofRow := Draft.finish

def read (levels : Levels) (d : Document) : Except ReadError Column := shape.read levels d

end Column

namespace Dataset

structure Draft where
  id : Option String := none
  title : Option String := none
  columns : Option (List Column) := none
  rowCount : Option Nat := none

def defaultTitle : String := "Data"

/-- Every field may be left out. -/
def Draft.finish (draft : Draft) : Dataset :=
  ⟨draft.id.getD "", draft.title.getD defaultTitle, draft.columns.getD [], draft.rowCount.getD 0⟩

def shape : Shape Draft Dataset where
  fields := [
    ⟨"id", fun draft => draft.id.isSome, fun _ d draft => do
      let s ← d.text
      return { draft with id := some s }⟩,
    ⟨"title", fun draft => draft.title.isSome, fun _ d draft => do
      let s ← d.text
      return { draft with title := some s }⟩,
    ⟨"columns", fun draft => draft.columns.isSome, fun levels d draft => do
      let columns ← d.list levels Column.read
      return { draft with columns := some columns }⟩,
    ⟨"rowCount", fun draft => draft.rowCount.isSome, fun _ d draft => do
      let n ← d.count
      return { draft with rowCount := some n }⟩]
  start := {}
  ofKeys := fun draft => .ok draft.finish
  ofRow := fun draft => .ok draft.finish

def read (levels : Levels) (d : Document) : Except ReadError Dataset := shape.read levels d

def parse (text : String) : Except ReadError Dataset := Json.decode (read .ofText) text

/-- A table from a value that is already read, of any depth. -/
def ofJson (v : Json) : Except ReadError Dataset := read none v.document

end Dataset

end PagedTables
