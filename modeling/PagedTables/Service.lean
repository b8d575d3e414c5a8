import PagedTables.Channel
import PagedTables.Message

namespace PagedTables

/-- A registered dataset and the channel that serves it. -/
structure Entry where
  dataset : Dataset
  channel : Nat

/-- The registered datasets by their ids. -/
structure Service where
  target : String
  entries : KeyMap Entry := []

structure Summary where
  id : String
  title : String
  rowCount : Nat
deriving DecidableEq

structure RegisterError where
  cause : ChannelError
deriving DecidableEq

/-- Why a message got no answer. A bad request is not among these: it is answered with an error
message. -/
inductive DispatchError where
  | unknownDataset (id : String)
  | channelUnavailable (id : String)
  | send (cause : ChannelError)
deriving DecidableEq

structure CloseFailure where
  channelId : String
  cause : ChannelError
deriving DecidableEq

structure ShutdownReport where
  closed : Nat
  failures : List CloseFailure
deriving DecidableEq

def RegisterError.message (e : RegisterError) : String := s!"open channel: {e.cause.message}"

def DispatchError.message : DispatchError → String
  | unknownDataset id => s!"data viewer dataset {id} not found"
  | channelUnavailable id => s!"data viewer channel {id} is not open"
  | send cause => s!"send: {cause.message}"

/-- A dataset without an id takes the fresh one. -/
def Dataset.named (d : Dataset) (fresh : String) : Dataset :=
  if d.id = "" then { d with id := fresh } else d

/-- What a viewer is told when the channel of `d` opens. -/
def Dataset.opening (d : Dataset) : Json := .obj [("title", .str d.title)]

def Dataset.summary (d : Dataset) : Summary := ⟨d.id, d.title, d.rowCount⟩

def Summary.toJson (s : Summary) : Json :=
  .obj [("id", .str s.id), ("rowCount", .count s.rowCount), ("title", .str s.title)]

namespace Service

def defaultTarget : String := "positron.dataViewer"

def has (s : Service) (id : String) : Bool := s.entries.contains id

def summaries (s : Service) : List Summary := s.entries.map (fun e => e.2.dataset.summary)

variable {W : Type} [Transport W]

/-- A channel that does not close stays as it is. -/
def closeQuietly (w : W) (channel : Nat) : W :=
  match Transport.close w channel with
  | .ok w => w
  | .error _ => w

/-- Opens a channel for `d` and puts both into the registry. The channel of an earlier dataset with
that id is closed; when no channel opens, nothing changes. -/
def register (s : Service) (w : W) (fresh : String) (d : Dataset) :
    Except RegisterError (String × Service × W) :=
  let d := d.named fresh
  match Transport.create w s.target d.id d.opening .service with
  | .error cause => .error ⟨cause⟩
  | .ok (channel, w) =>
    let w := match s.entries.get? d.id with
      | some old => closeQuietly w old.channel
      | none => w
    .ok (d.id, { s with entries := s.entries.insert d.id ⟨d, channel⟩ }, w)

def sendMessage (w : W) (channel : Nat) (msg : Message) : Except DispatchError W :=
  (Transport.send w channel msg.toJson).mapError .send

/-- Answers a message for the dataset `id` on the channel of that dataset. -/
def dispatch (s : Service) (w : W) (id : String) (msg : Json) : Except DispatchError W :=
  match s.entries.get? id with
  | none => .error (.unknownDataset id)
  | some entry =>
    if Transport.isOpen w entry.channel then
      sendMessage w entry.channel (Message.reply entry.dataset msg)
    else .error (.channelUnavailable id)

def sendData (w : W) (channel : Nat) (d : Dataset) (tag : DataTag) (window : RowWindow) :
    Except DispatchError W :=
  sendMessage w channel (Message.ofWindow d tag window)

/-- Closes the channel of each entry once; one that fails does not stop the others. -/
def closeEach (w : W) : KeyMap Entry → ShutdownReport × W
  | [] => (⟨0, []⟩, w)
  | (id, entry) :: entries =>
    match Transport.close w entry.channel with
    | .ok w =>
      let (report, w) := closeEach w entries
      ({ report with closed := report.closed + 1 }, w)
    | .error cause =>
      let (report, w) := closeEach w entries
      ({ report with failures := ⟨id, cause⟩ :: report.failures }, w)

/-- The registry is empty afterwards, whatever failed. -/
def shutdown (s : Service) (w : W) : ShutdownReport × Service × W :=
  let (report, w) := closeEach w s.entries
  (report, { s with entries := [] }, w)

end Service

end PagedTables
