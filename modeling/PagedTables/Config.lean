import PagedTables.Service
import PagedTables.Source
import PagedTables.Toml.Text

namespace PagedTables

/-- The settings of a server. -/
structure Config where
  apiPort : Nat := 9300
  targetName : String := Service.defaultTarget
  /-- The length of the queue of each connection. -/
  wsBuffer : Nat := 1024
  datasets : List Source := []
deriving DecidableEq

/-- Why there are no settings: the file cannot be read, or its text is at fault. -/
inductive ConfigError where
  | read (path : String) (e : FileError)
  | parse (path : String)
deriving DecidableEq

def ConfigError.message : ConfigError → String
  | read path e => s!"config (read): '{path}': {e.message}"
  | parse path => s!"config (parse): '{path}': invalid settings"

namespace Toml.Value

def string? : Value → Option String
  | string s => some s
  | _ => none

def natBelow? (bound : Nat) : Value → Option Nat
  | integer i => if 0 ≤ i.toInt ∧ i.toInt.toNat < bound then some i.toInt.toNat else none
  | _ => none

def isEmpty : Value → Bool
  | array [] => true
  | table [] => true
  | _ => false

/-- A format is given by its name, or by a table that has nothing but an empty part of that name. -/
def format? : Value → Option Format
  | string s => Format.ofName? s
  | table [(name, v)] => if v.isEmpty then Format.ofName? name else none
  | _ => none

end Toml.Value

namespace Config

/-- A setting that is there has to be of the right kind. -/
def setting {α : Type} (entries : List (String × Toml.Value)) (key : String) (default : α)
    (read : Toml.Value → Option α) : Option α :=
  match KeyMap.get? entries key with
  | none => some default
  | some v => read v

def optional {α : Type} (read : Toml.Value → Option α) (v : Toml.Value) : Option (Option α) :=
  (read v).map some

/-- A dataset is a table by keys, or an array in the order path, id, title, format. Only the path
has to be there. -/
def source? : Toml.Value → Option Source
  | .table entries => do
    let path ← (KeyMap.get? entries "path").bind Toml.Value.string?
    let id ← setting entries "id" none (optional Toml.Value.string?)
    let title ← setting entries "title" none (optional Toml.Value.string?)
    let format ← setting entries "format" none (optional Toml.Value.format?)
    return { path, id, title, format }
  | .array items => do
    let path ← items[0]?.bind Toml.Value.string?
    let id ← items[1]?.elim (some none) (optional Toml.Value.string?)
    let title ← items[2]?.elim (some none) (optional Toml.Value.string?)
    let format ← items[3]?.elim (some none) (optional Toml.Value.format?)
    return { path, id, title, format }
  | _ => none

def sources? : Toml.Value → Option (List Source)
  | .array items => items.mapM source?
  | _ => none

def ofEntries? (entries : List (String × Toml.Value)) : Option Config := do
  let default : Config := {}
  let apiPort ← setting entries "api_port" default.apiPort (Toml.Value.natBelow? (1 <<< 16))
  let targetName ← setting entries "target_name" default.targetName Toml.Value.string?
  let wsBuffer ← setting entries "ws_buffer" default.wsBuffer (Toml.Value.natBelow? (1 <<< 64))
  let datasets ← setting entries "datasets" default.datasets sources?
  return { apiPort, targetName, wsBuffer, datasets }

def load (files : Files) (path : String) : Except ConfigError Config := do
  let text ← (files.readText path).mapError (.read path)
  match (Toml.parse text).bind ofEntries? with
  | some config => return config
  | none => .error (.parse path)

end Config

end PagedTables
