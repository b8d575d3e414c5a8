import PagedTables.Json.Decode
import PagedTables.Text.Base64

namespace PagedTables

/-- One value of a column. A double may be infinite or no number here; bytes and nested JSON have
kinds of their own. -/
inductive Cell where
  | null
  | bool (b : Bool)
  | int (i : Int64)
  | float (d : Double)
  | text (s : String)
  | bytes (b : List UInt8)
  | json (v : Json)

namespace Cell

instance : Inhabited Cell := ⟨null⟩

inductive Kind where
  | null
  | bool
  | int
  | float
  | text
  | bytes
  | json
deriving DecidableEq

def kind : Cell → Kind
  | null => .null
  | bool _ => .bool
  | int _ => .int
  | float _ => .float
  | text _ => .text
  | bytes _ => .bytes
  | json _ => .json

def Kind.name : Kind → String
  | null => "null"
  | bool => "bool"
  | int => "int"
  | float => "float"
  | text => "text"
  | bytes => "bytes"
  | json => "json"

def isNull : Cell → Bool
  | null => true
  | _ => false

/-- Scalars take their own kind; arrays, objects and whole numbers beyond 63 bits stay JSON. -/
def ofJson : Json → Cell
  | .null => null
  | .bool b => bool b
  | .num (.int i) => int i
  | .num (.double d _) => float d
  | .num (.large n above) => json (.num (.large n above))
  | .str s => text s
  | .arr items => json (.arr items)
  | .obj members => json (.obj members)

/-- The JSON that is sent for a cell: null for a double that is not finite, base64 for bytes. -/
def clean : Cell → Json
  | null => .null
  | bool b => .bool b
  | int i => .num (.int i)
  | float d => if h : d.isFinite = true then .num (.double d h) else .null
  | text s => .str s
  | bytes b => .str (Base64.encode b)
  | json v => v

def read (levels : Levels) (d : Document) : Except ReadError Cell := (d.value levels).map ofJson

theorem clean_ofJson (v : Json) : (ofJson v).clean = v := by
  cases v with
  | num n => cases n <;> simp_all [ofJson, clean]
  | _ => rfl

end Cell

end PagedTables
