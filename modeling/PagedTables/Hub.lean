import PagedTables.Channel
import PagedTables.KeyMap

namespace PagedTables

/-- What waits for a connection to write it out. -/
inductive Frame where
  | message (v : Json)
  | close

/-- The queue between a channel and one connection. It is over for the connection once the channel
side is gone and it is empty, and for the channel once the connection reads no more. -/
structure Queue where
  capacity : Nat
  frames : List Frame
  hasSender : Bool := true
  hasReader : Bool := true

inductive Received where
  | frame (f : Frame)
  | empty
  | disconnected

namespace Queue

/-- No queue may be made to hold more. -/
def maxCapacity : Nat := (1 <<< 61) - 1

inductive Refused where
  | full
  | noReader

def push (q : Queue) (f : Frame) : Except Refused Queue :=
  if !q.hasReader then .error .noReader
  else if q.capacity ≤ q.frames.length then .error .full
  else .ok { q with frames := q.frames ++ [f] }

def pop (q : Queue) : Received × Queue :=
  match q.frames with
  | f :: frames => (.frame f, { q with frames })
  | [] => (if q.hasSender then .empty else .disconnected, q)

end Queue

/-- A channel that viewers connect to, at most one at a time. Connection `n`, counted from one, has
the queue at place `n - 1`. -/
structure HubChannel where
  id : String
  target : String
  opening : Json
  handler : Option Handler
  closed : Bool := false
  peer : Option Nat := none
  queues : List Queue := []

namespace HubChannel

/-- The first frame of every connection. -/
def openFrame (c : HubChannel) : Json :=
  .obj [("comm_id", .str c.id), ("data", c.opening), ("msg_type", .str "comm_open"),
    ("target_name", .str c.target)]

def updateQueue (c : HubChannel) (conn : Nat) (f : Queue → Queue) : HubChannel :=
  { c with queues := c.queues.modify (conn - 1) f }

/-- The channel lets go of the queue of its peer. -/
def dropPeer (c : HubChannel) : HubChannel :=
  match c.peer with
  | none => c
  | some conn => { c.updateQueue conn (fun q => { q with hasSender := false }) with peer := none }

inductive Attached where
  | refused
  /-- The buffer is larger than any queue may be. -/
  | overCapacity
  | attached (conn : Nat) (c : HubChannel)

/-- The newest connection takes the place of the one before. -/
def attach (c : HubChannel) (buffer : Nat) : Attached :=
  let capacity := max buffer 1
  if c.closed then .refused
  else if Queue.maxCapacity < capacity then .overCapacity
  else
    let queue : Queue := { capacity, frames := [.message c.openFrame] }
    let conn := c.queues.length + 1
    let c := c.dropPeer
    .attached conn { c with peer := some conn, queues := c.queues ++ [queue] }

/-- Only the current connection can detach. -/
def detach (c : HubChannel) (conn : Nat) : HubChannel :=
  if c.peer = some conn then c.dropPeer else c

def peerQueue? (c : HubChannel) : Option (Nat × Queue) := do
  let conn ← c.peer
  let queue ← c.queues[conn - 1]?
  return (conn, queue)

def setQueue (c : HubChannel) (conn : Nat) (q : Queue) : HubChannel :=
  c.updateQueue conn (fun _ => q)

def send (c : HubChannel) (msg : Json) : Except ChannelError HubChannel :=
  if c.closed then .error (.closed c.id)
  else
    match c.peerQueue? with
    | none => .error (.detached c.id)
    | some (conn, queue) =>
      match queue.push (.message msg) with
      | .ok queue => .ok (c.setQueue conn queue)
      | .error .full => .error (.full c.id)
      | .error .noReader => .error (.detached c.id)

/-- The current connection is told, if its queue still takes a frame, and is let go. -/
def close (c : HubChannel) : Except ChannelError HubChannel :=
  if c.closed then .error (.closed c.id)
  else
    let told := match c.peerQueue? with
      | none => c
      | some (conn, queue) =>
        match queue.push .close with
        | .ok queue => c.setQueue conn queue
        | .error _ => c
    .ok { told.dropPeer with closed := true, handler := none }

def read (c : HubChannel) (conn : Nat) : Option (Received × HubChannel) :=
  match c.queues[conn - 1]? with
  | none => none
  | some queue =>
    let (received, queue) := queue.pop
    some (received, c.setQueue conn queue)

/-- The connection reads no more; what waited for it is gone. -/
def stopReading (c : HubChannel) (conn : Nat) : HubChannel :=
  c.updateQueue conn (fun q => { q with hasReader := false, frames := [] })

end HubChannel

/-- All channels in the order of creation, and the one that a viewer finds under each id. -/
structure Hub where
  buffer : Nat
  channels : List HubChannel := []
  routes : KeyMap Nat := []

namespace Hub

def update (w : Hub) (channel : Nat) (f : HubChannel → HubChannel) : Hub :=
  { w with channels := w.channels.modify channel f }

/-- Applies an operation that may fail to one channel. There is none under a number not given out.
-/
def apply (w : Hub) (channel : Nat) (f : HubChannel → Except ChannelError HubChannel) :
    Except ChannelError Hub :=
  match w.channels[channel]? with
  | none => .error (.closed "")
  | some c => (f c).map (fun c => { w with channels := w.channels.set channel c })

def isOpen (w : Hub) (channel : Nat) : Bool := w.channels[channel]?.any (fun c => !c.closed)

/-- The open channel for `id`. A channel that is found closed is forgotten. -/
def find (w : Hub) (id : String) : Option Nat × Hub :=
  match w.routes.get? id with
  | none => (none, w)
  | some channel =>
    if w.isOpen channel then (some channel, w)
    else (none, { w with routes := w.routes.erase id })

def create (w : Hub) (target id : String) (opening : Json) (handler : Handler) : Nat × Hub :=
  let number := w.channels.length
  (number, { w with
    channels := w.channels ++ [{ id, target, opening, handler := some handler }]
    routes := w.routes.insert id number })

/-- Closing drops the handler, so a closed channel has none unless one was put there afterwards. -/
def receiver? (w : Hub) (channel : Nat) : Option (String × Handler) :=
  match w.channels[channel]? with
  | none => none
  | some c => c.handler.map (fun h => (c.id, h))

instance : Transport Hub where
  isOpen := isOpen
  send w channel msg := w.apply channel (fun c => c.send msg)
  close w channel := w.apply channel HubChannel.close
  create w target id opening handler := .ok (w.create target id opening handler)
  listen w channel handler := w.update channel (fun c => { c with handler := some handler })
  receiver? := receiver?

inductive Attached where
  | refused
  | overCapacity
  | attached (conn : Nat) (w : Hub)

def attach (w : Hub) (channel buffer : Nat) : Attached :=
  match w.channels[channel]? with
  | none => .refused
  | some c =>
    match c.attach buffer with
    | .refused => .refused
    | .overCapacity => .overCapacity
    | .attached conn c => .attached conn { w with channels := w.channels.set channel c }

def detach (w : Hub) (channel conn : Nat) : Hub := w.update channel (fun c => c.detach conn)

def read (w : Hub) (channel conn : Nat) : Option (Received × Hub) :=
  match w.channels[channel]? with
  | none => none
  | some c =>
    match c.read conn with
    | none => none
    | some (received, c) => some (received, { w with channels := w.channels.set channel c })

def stopReading (w : Hub) (channel conn : Nat) : Hub :=
  w.update channel (fun c => c.stopReading conn)

end Hub

end PagedTables
