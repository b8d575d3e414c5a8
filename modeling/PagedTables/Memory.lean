import PagedTables.Channel
import PagedTables.KeyMap

namespace PagedTables

/-- A channel inside one process: what is sent on it is kept. It can be made to refuse to send or to
close. -/
structure MemoryChannel where
  id : String
  target : String
  opening : Json
  handler : Option Handler := none
  sent : List Json := []
  closed : Bool := false
  refusesSend : Bool := false
  refusesClose : Bool := false

namespace MemoryChannel

/-- A closed channel says so before one that refuses. -/
def send (c : MemoryChannel) (msg : Json) : Except ChannelError MemoryChannel :=
  if c.closed then .error (.closed c.id)
  else if c.refusesSend then .error (.refused .sending c.id)
  else .ok { c with sent := c.sent ++ [msg] }

/-- A channel that refuses says so even when it is closed. Closing drops the handler. -/
def close (c : MemoryChannel) : Except ChannelError MemoryChannel :=
  if c.refusesClose then .error (.refused .closing c.id)
  else if c.closed then .error (.closed c.id)
  else .ok { c with closed := true, handler := none }

end MemoryChannel

/-- All channels in the order of creation, and the latest one that was opened for each id. -/
structure Memory where
  channels : List MemoryChannel := []
  latest : KeyMap Nat := []
  refusesOpen : Bool := false

/-- What only this transport can be asked for; channels are given by number. -/
inductive MemoryEvent where
  /-- A channel that no id leads to. -/
  | bare (target id : String) (opening : Json)
  | refuseOpen (on : Bool)
  | refuseSend (channel : Nat) (on : Bool)
  | refuseClose (channel : Nat) (on : Bool)
  | takeSent (channel : Nat)

namespace Memory

def update (w : Memory) (channel : Nat) (f : MemoryChannel → MemoryChannel) : Memory :=
  { w with channels := w.channels.modify channel f }

/-- Applies an operation that may fail to one channel. There is none under a number not given out.
-/
def apply (w : Memory) (channel : Nat)
    (f : MemoryChannel → Except ChannelError MemoryChannel) : Except ChannelError Memory :=
  match w.channels[channel]? with
  | none => .error (.closed "")
  | some c => (f c).map (fun c => { w with channels := w.channels.set channel c })

def create (w : Memory) (target id : String) (opening : Json) (handler : Handler) :
    Except ChannelError (Nat × Memory) :=
  if w.refusesOpen then .error (.refused .opening id)
  else
    let number := w.channels.length
    .ok (number, { w with
      channels := w.channels ++ [{ id, target, opening, handler := some handler }]
      latest := w.latest.insert id number })

/-- A closed channel takes no messages. -/
def receiver? (w : Memory) (channel : Nat) : Option (String × Handler) :=
  match w.channels[channel]? with
  | none => none
  | some c => if c.closed then none else c.handler.map (fun h => (c.id, h))

instance : Transport Memory where
  isOpen w channel := w.channels[channel]?.any (fun c => !c.closed)
  send w channel msg := w.apply channel (fun c => c.send msg)
  close w channel := w.apply channel MemoryChannel.close
  create := create
  listen w channel handler := w.update channel (fun c => { c with handler := some handler })
  receiver? := receiver?

def step (w : Memory) : MemoryEvent → Memory
  | .bare target id opening =>
    { w with channels := w.channels ++ [{ id, target, opening }] }
  | .refuseOpen on => { w with refusesOpen := on }
  | .refuseSend channel on => w.update channel (fun c => { c with refusesSend := on })
  | .refuseClose channel on => w.update channel (fun c => { c with refusesClose := on })
  | .takeSent channel => w.update channel (fun c => { c with sent := [] })

end Memory

end PagedTables
