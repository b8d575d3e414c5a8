import PagedTables.KeyMap

namespace PagedTables.Toml

/-- A value of a configuration text. What no setting uses is not kept apart further. -/
inductive Value where
  | string (s : String)
  | integer (i : Int64)
  | float
  | boolean (b : Bool)
  | datetime
  | array (items : List Value)
  | table (entries : List (String × Value))

/-- How a table came about, which decides what may be added to it. -/
inductive Origin where
  /-- Under a header of its own. -/
  | header
  /-- On the way to the header of another table. -/
  | implied
  /-- On the way of a dotted key. -/
  | dotted
deriving DecidableEq

/-- What is known about a key while a text is being read. -/
inductive Node where
  | value (v : Value)
  | table (origin : Origin) (entries : List (String × Node))
  /-- The tables under one doubled header. -/
  | tables (elements : List (List (String × Node)))

abbrev Entries := KeyMap Node

mutual

def Node.toValue : Node → Value
  | .value v => v
  | .table _ entries => .table (entryValues entries)
  | .tables elements => .array (elementValues elements)

def entryValues : List (String × Node) → List (String × Value)
  | [] => []
  | (key, node) :: entries => (key, node.toValue) :: entryValues entries

def elementValues : List (List (String × Node)) → List Value
  | [] => []
  | entries :: elements => .table (entryValues entries) :: elementValues elements

end

namespace Entries

/-- Changes the last of the tables under a doubled header. -/
def inLast (f : Entries → Option Entries) :
    List (List (String × Node)) → Option (List (List (String × Node)))
  | [] => none
  | [entries] => (f entries).map (fun entries => [entries])
  | entries :: elements => (inLast f elements).map (fun elements => entries :: elements)

/-- Changes the table that the keys of a header lead to; tables that are missing are made. -/
def atHeader (f : Entries → Option Entries) : List String → Entries → Option Entries
  | [], entries => f entries
  | key :: path, entries =>
    match entries.get? key with
    | none => (atHeader f path []).map (fun inner => entries.insert key (.table .implied inner))
    | some (.value _) => none
    | some (.table origin inner) =>
      (atHeader f path inner).map (fun inner => entries.insert key (.table origin inner))
    | some (.tables elements) =>
      (inLast (atHeader f path) elements).map
        (fun elements => entries.insert key (.tables elements))

/-- A value goes in only under a key that is free. -/
def define (key : String) (v : Value) (entries : Entries) : Option Entries :=
  if entries.contains key then none else some (entries.insert key (.value v))

/-- Defines a dotted key. It may lead through tables that dotted keys made, and end in no other. -/
def defineDotted (v : Value) : List String → Entries → Option Entries
  | [], _ => none
  | [key], entries => entries.define key v
  | key :: path, entries =>
    match entries.get? key with
    | none => (defineDotted v path []).map (fun inner => entries.insert key (.table .dotted inner))
    | some (.value _) => none
    | some (.table .header _) => none
    | some (.table .implied inner) =>
      if path.length = 1 then none
      else (defineDotted v path inner).map (fun inner => entries.insert key (.table .implied inner))
    | some (.table .dotted inner) =>
      (defineDotted v path inner).map (fun inner => entries.insert key (.table .dotted inner))
    | some (.tables elements) =>
      if path.length = 1 then none
      else
        (inLast (defineDotted v path) elements).map
          (fun elements => entries.insert key (.tables elements))

end Entries

/-- A text up to some line: all finished tables, and the one whose keys come next. -/
structure Draft where
  root : Entries := []
  path : List String := []
  doubled : Bool := false
  current : Entries := []

namespace Draft

/-- The current table takes its place among the others, which no other table may hold already. -/
def finish (d : Draft) : Option Entries :=
  match d.path.getLast? with
  | none => some d.current
  | some key =>
    Entries.atHeader (fun parent =>
      match parent.get? key, d.doubled with
      | none, false => some (parent.insert key (.table .header d.current))
      | some (.table .implied _), false => some (parent.insert key (.table .header d.current))
      | none, true => some (parent.insert key (.tables [d.current]))
      | some (.tables elements), true =>
        some (parent.insert key (.tables (elements ++ [d.current])))
      | _, _ => none) d.path.dropLast d.root

def define (d : Draft) (keys : List String) (v : Value) : Option Draft :=
  (d.current.defineDotted v keys).map (fun current => { d with current })

def node? : List String → Entries → Option Node
  | [], _ => none
  | [key], entries => entries.get? key
  | key :: path, entries =>
    match entries.get? key with
    | some (.table _ inner) => node? path inner
    | some (.tables elements) => elements.getLast?.bind (node? path)
    | _ => none

/-- A header goes on with what the headers of tables further down have put there before. -/
def openTable (d : Draft) (path : List String) : Option Draft := do
  let root ← d.finish
  let current := match node? path root with
    | some (.table .implied inner) => inner
    | _ => []
  return { root, path, doubled := false, current }

def openDoubled (d : Draft) (path : List String) : Option Draft := do
  let root ← d.finish
  return { root, path, doubled := true, current := [] }

end Draft

end PagedTables.Toml
