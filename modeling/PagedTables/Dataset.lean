import PagedTables.Cell

namespace PagedTables

/-- A column with its name and the type it is announced with, which nothing checks. -/
structure Column where
  name : String
  type : String
  cells : List Cell

/-- A table by columns. `rowCount` is the size of the whole table, of which the columns may hold
less. -/
structure Dataset where
  id : String
  title : String
  columns : List Column
  rowCount : Nat

/-- A window that begins outside the table. -/
structure InvalidRange where
  start : Int64
deriving DecidableEq

def InvalidRange.message (e : InvalidRange) : String := s!"Invalid start row: {e.start.toInt}"

/-- A column whose length differs from that of the first column. -/
structure Ragged where
  column : String
  expected : Nat
  actual : Nat
deriving DecidableEq

def Ragged.message (e : Ragged) : String :=
  s!"column '{e.column}' has {e.actual} values, expected {e.expected}"

namespace Column

def rows (c : Column) (first last : Nat) : Column :=
  { c with cells := (c.cells.drop first).take (last - first) }

/-- Where a window ends in a column of `n` cells: a negative end counts back from the end of the
column, and no window ends before it begins. -/
def windowEnd (n first : Nat) (last : Int64) : Nat :=
  let stop := if last < 0 then n - last.toInt.natAbs else min last.toInt.toNat n
  max stop first

def window (c : Column) (start : Nat) (last : Int64) : Column :=
  let n := c.cells.length
  let first := min start n
  c.rows first (windowEnd n first last)

end Column

namespace Dataset

/-- A table without an id, as long as its first column. -/
def ofColumns (title : String) (columns : List Column) : Dataset :=
  { id := "", title, columns, rowCount := columns.head?.elim 0 (fun c => c.cells.length) }

def checkColumns (d : Dataset) : Except Ragged Unit :=
  match d.columns with
  | [] => .ok ()
  | first :: _ =>
    match d.columns.find? (fun c => c.cells.length != first.cells.length) with
    | none => .ok ()
    | some c => .error ⟨c.name, first.cells.length, c.cells.length⟩

/-- The row at which a window that begins at `start` begins. -/
def firstRow? (d : Dataset) (start : Int64) : Option Nat :=
  if 0 ≤ start ∧ start.toInt.toNat < d.rowCount then some start.toInt.toNat else none

/-- The sum stays at the ends of the range of 64 bits. -/
def saturatingAdd (a b : Int64) : Int64 := Int64.ofIntClamp (a.toInt + b.toInt)

/-- The rows from `start` up to `start + size` of every column. A window that holds the whole table
returns the columns as they are. -/
def slice (d : Dataset) (start size : Int64) : Except InvalidRange (List Column) :=
  match d.firstRow? start with
  | none => .error ⟨start⟩
  | some first =>
    if first = 0 ∧ (d.rowCount : Int) ≤ size.toInt then .ok d.columns
    else .ok (d.columns.map (fun c => c.window first (saturatingAdd start size)))

/-- The table with its columns cut to the window; its id, title and size stay. -/
def window (d : Dataset) (start size : Int64) : Except InvalidRange Dataset :=
  (d.slice start size).map (fun columns => { d with columns })

end Dataset

end PagedTables
