import PagedTables.Host
import PagedTables.Hub

namespace PagedTables

inductive Inbound where
  | text (s : String)
  /-- Binary frames and pings get no answer. -/
  | other
  /-- The viewer ends the connection. -/
  | close

inductive Outbound where
  | text (s : String)
  | close
deriving DecidableEq

/-- A viewer's connection to a channel: frames that wait to be read from its socket, and all that
was written to it. It is served as long as it is running. -/
structure Connection where
  channel : Nat
  conn : Nat
  inbox : List Inbound := []
  written : List Outbound := []
  running : Bool := true

/-- What a connection does once everything queued is written. -/
inductive Task where
  /-- A frame was queued in the meantime; the hub is the one without it. -/
  | write (f : Frame) (w : Hub)
  | hand (v : Json)
  | reject
  | skip
  | wait
  | stop

/-- What the first frame from the socket leads to. -/
def Task.ofInbox : List Inbound → Task
  | [] => .wait
  | .close :: _ => .stop
  | .other :: _ => .skip
  | .text s :: _ =>
    match Json.parse .ofText s with
    | .ok v => .hand v
    | .error _ => .reject

namespace Connection

def write (c : Connection) (f : Outbound) : Connection := { c with written := c.written ++ [f] }

def stop (c : Connection) : Connection := { c with running := false }

/-- Writes a queued frame. Nothing is served after a close. -/
def put (c : Connection) : Frame → Connection
  | .message v => c.write (.text v.render)
  | .close => (c.write .close).stop

def flushUpTo : (most : Nat) → Connection → Hub → Connection × Hub
  | 0, c, w => (c, w)
  | most + 1, c, w =>
    match w.read c.channel c.conn with
    | some (.frame f, w) => if (c.put f).running then flushUpTo most (c.put f) w else (c.put f, w)
    | some (.empty, _) => (c, w)
    | _ => (c.stop, w)

def waiting (c : Connection) (w : Hub) : Nat :=
  match w.channels[c.channel]? with
  | none => 0
  | some channel => (channel.queues[c.conn - 1]?).elim 0 (fun q => q.frames.length)

def flush (c : Connection) (h : Host Hub) : Connection × Host Hub :=
  if c.running then
    let (c, w) := flushUpTo (c.waiting h.world + 1) c h.world
    (c, { h with world := w })
  else (c, h)

/-- A queued frame comes before a frame from the socket. -/
def task (c : Connection) (w : Hub) : Task :=
  match w.read c.channel c.conn with
  | some (.frame f, w) => .write f w
  | some (.empty, _) => .ofInbox c.inbox
  | _ => .stop

/-- The answer to text that is no JSON goes past the queue. -/
def notJsonReply : Json := (Message.error RequestError.notJson.message).toJson

/-- The first frame from the socket is dealt with. -/
def shift (c : Connection) : Connection := { c with inbox := c.inbox.tail }

def select (c : Connection) (h : Host Hub) : Connection × Host Hub :=
  if c.running then
    match c.task h.world with
    | .write f w => (c.put f, { h with world := w })
    | .hand v => (c.shift, (h.deliver c.channel v).1)
    | .reject => (c.shift.write (.text notJsonReply.render), h)
    | .skip => (c.shift, h)
    | .wait => (c, h)
    | .stop => (c.stop, h)
  else (c, h)

/-- A connection that is over gives up its place at the channel. -/
def leave (c : Connection) (h : Host Hub) : Connection × Host Hub :=
  if c.running then (c, h) else (c, { h with world := h.world.detach c.channel c.conn })

end Connection

end PagedTables
