import PagedTables.Dataset.Wire
import PagedTables.Json.Text

namespace PagedTables

/-- The rows that a viewer asks for. -/
structure RowWindow where
  startRow : Int64 := 0
  fetchSize : Int64 := 100
deriving DecidableEq

/-- A viewer asks for the first page with `ready` and for further ones with `requestRows`. -/
inductive RequestTag where
  | ready
  | requestRows
deriving DecidableEq

inductive DataTag where
  | initialData
  | receiveRows
deriving DecidableEq

structure Request where
  tag : RequestTag
  window : RowWindow
deriving DecidableEq

/-- Why a message is no request. -/
inductive RequestError where
  | notAnObject (v : Json)
  /-- `none` when the message has no type. -/
  | unknownType (type : Option Json)
  | notAnInteger (field : String) (v : Json)
  /-- Text that is no JSON. -/
  | notJson

/-- What the service sends to a viewer. -/
inductive Message where
  | data (tag : DataTag) (window : RowWindow) (table : Dataset)
  | error (text : String)

namespace RequestTag

def name : RequestTag → String
  | ready => "ready"
  | requestRows => "request_rows"

def ofName? (s : String) : Option RequestTag :=
  if s = ready.name then some ready else if s = requestRows.name then some requestRows else none

def answer : RequestTag → DataTag
  | ready => .initialData
  | requestRows => .receiveRows

end RequestTag

def DataTag.name : DataTag → String
  | initialData => "initial_data"
  | receiveRows => "receive_rows"

def DataTag.ofName? (s : String) : Option DataTag :=
  if s = initialData.name then some initialData
  else if s = receiveRows.name then some receiveRows
  else none

def RequestError.message : RequestError → String
  | notAnObject v => s!"Malformed message: expected a JSON object, got {v.render}"
  | unknownType none => "Unknown message type 'None'"
  | unknownType (some (.str s)) => s!"Unknown message type '{s}'"
  | unknownType (some v) => s!"Unknown message type '{v.render}'"
  | notAnInteger field v => s!"Invalid field '{field}': expected an integer, got {v.render}"
  | notJson => "Malformed message: not JSON"

namespace Request

/-- A field that is absent or null takes its default. -/
def integerField (members : KeyMap Json) (field : String) (default : Int64) :
    Except RequestError Int64 :=
  match members.get? field with
  | none => .ok default
  | some .null => .ok default
  | some (.num (.int i)) => .ok i
  | some v => .error (.notAnInteger field v)

def tagOf (members : KeyMap Json) : Except RequestError RequestTag :=
  match members.get? "msg_type" with
  | some (.str s) =>
    match RequestTag.ofName? s with
    | some tag => .ok tag
    | none => .error (.unknownType (some (.str s)))
  | type => .error (.unknownType type)

/-- The type is looked at first, then the start row, then the fetch size; other keys do not matter.
-/
def ofJson : Json → Except RequestError Request
  | .obj members => do
    let tag ← tagOf members
    let startRow ← integerField members "start_row" ({} : RowWindow).startRow
    let fetchSize ← integerField members "fetch_size" ({} : RowWindow).fetchSize
    return ⟨tag, startRow, fetchSize⟩
  | v => .error (.notAnObject v)

end Request

namespace Message

def typeName : Message → String
  | data tag _ _ => tag.name
  | error _ => "error"

def toJson : Message → Json
  | data tag window table =>
    .obj [("data", table.toJson), ("fetch_size", .int window.fetchSize),
      ("msg_type", .str tag.name), ("start_row", .int window.startRow)]
  | error text => .obj [("error", .str text), ("msg_type", .str "error")]

/-- A window that begins outside the table is answered with an error message. -/
def ofWindow (d : Dataset) (tag : DataTag) (window : RowWindow) : Message :=
  match d.window window.startRow window.fetchSize with
  | .ok table => data tag window table
  | .error e => error e.message

/-- What `d` answers to any message. -/
def reply (d : Dataset) (msg : Json) : Message :=
  match Request.ofJson msg with
  | .ok request => ofWindow d request.tag.answer request.window
  | .error e => error e.message

end Message

end PagedTables
