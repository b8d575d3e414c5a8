import PagedTables.Connection
import PagedTables.Http

namespace PagedTables

/-- Whether a viewer's machine has a way to the server. -/
inductive Network where
  | loopback
  | unreachable
deriving DecidableEq

/-- The server: a service over the hub, and the connections of its viewers in order. -/
structure Server where
  host : Host Hub
  network : Network := .loopback
  connections : List Connection := []

inductive ConnectError where
  | network
  /-- There is no channel under the id. -/
  | http (status : Nat)
deriving DecidableEq

def ConnectError.message : ConnectError → String
  | network => "IO error: Network is unreachable (os error 101)"
  | http status => s!"HTTP error: {status}"

namespace Server

def start (target : String) (buffer : Nat) (network : Network) : Server :=
  { host := Host.start target { buffer }, network }

/-- Listed with the id first, then the title, then the number of rows. -/
def listing (s : Server) : String :=
  let summaries := (s.host.service.map Service.summaries).getD []
  let item (d : Summary) : String :=
    "\x7b\"id\":" ++ Json.quote d.id ++ ",\"title\":" ++ Json.quote d.title ++ ",\"rowCount\":" ++
      toString d.rowCount ++ "\x7d"
  "[" ++ ",".intercalate (summaries.map item) ++ "]"

def plain : String := "text/plain; charset=utf-8"

def noChannel (id : String) : Response := ⟨404, some plain, s!"no data viewer channel '{id}'"⟩

/-- What a request is about. -/
inductive Route where
  | datasets
  /-- The channel under an id, which is none when its bytes are no text. -/
  | channel (id : Option String)
  | unknown

/-- The part of a path after `/ws/`, when it is one segment and not empty. -/
def channelSegment? (path : String) : Option String :=
  match path.splitOn "/" with
  | ["", "ws", id] => if id = "" then none else some id
  | _ => none

def route (target : String) : Route :=
  let path := (target.splitOn "?").headD ""
  if path = "/api/datasets" then .datasets
  else
    match channelSegment? path with
    | none => .unknown
    | some segment =>
      .channel (String.fromUTF8? (ByteArray.mk (Http.percentDecode segment.toList).toArray))

/-- What is found under `id`; a channel that is closed is forgotten. -/
def look (s : Server) (id : String) : Option Nat × Server :=
  let (found, hub) := s.host.world.find id
  (found, { s with host := { s.host with world := hub } })

/-- The answer to a viewer who asks for the channel under `id`. Status 101 says that it may connect;
without `upgrade` it cannot. -/
def respondChannel (s : Server) (id : String) (upgrade : Bool) : Response × Server :=
  if !upgrade then (⟨400, some plain, "Connection header did not include 'upgrade'"⟩, s)
  else
    match s.look id with
    | (none, s) => (noChannel id, s)
    | (some _, s) => (⟨101, none, ""⟩, s)

/-- The answer to a request. One that asks for the head alone gets no body. -/
def respond (s : Server) (method : Method) (target : String) (upgrade : Bool) : Response × Server :=
  match route target, method with
  | .unknown, _ => (⟨404, none, ""⟩, s)
  | .datasets, .get => (⟨200, some "application/json", s.listing⟩, s)
  | .datasets, .head => (⟨200, some "application/json", ""⟩, s)
  | .channel none, .get => (⟨400, some plain, "Invalid URL: Invalid UTF-8 in `id`"⟩, s)
  | .channel none, .head => (⟨400, some plain, ""⟩, s)
  | .channel (some id), .get => s.respondChannel id upgrade
  | .channel (some _), .head => (⟨405, some plain, ""⟩, s)
  | _, .other => (⟨405, none, ""⟩, s)

/-- A viewer takes its place at a channel that it found. The channel may be closed after all, and
the viewer is then told so at once. No queue is made for a buffer that is larger than any may be, and
asking for one is a fault that nothing handles: in a build that unwinds, which is what stands here,
only this viewer is dropped, and one that aborts ends with it. -/
def join (s : Server) (channel : Nat) : Server :=
  match s.host.world.attach channel s.host.world.buffer with
  | .attached conn w =>
    { s with
      host := { s.host with world := w }
      connections := s.connections ++ [{ channel, conn }] }
  | .refused =>
    { s with
      connections := s.connections ++
        [{ channel, conn := 0, written := [.close], running := false }] }
  | .overCapacity =>
    { s with connections := s.connections ++ [{ channel, conn := 0, running := false }] }

def connect (s : Server) (id : String) : Except ConnectError Nat × Server :=
  if s.network = .unreachable then (.error .network, s)
  else
    match s.look id with
    | (none, s) => (.error (.http 404), s)
    | (some channel, s) => (.ok s.connections.length, s.join channel)

def arrive (s : Server) (number : Nat) (frames : List Inbound) : Server :=
  { s with connections :=
      s.connections.modify number (fun c => { c with inbox := c.inbox ++ frames }) }

def doing (s : Server) (number : Nat) (f : Connection → Host Hub → Connection × Host Hub) :
    Server :=
  match s.connections[number]? with
  | none => s
  | some c =>
    let (c, host) := f c s.host
    { s with host, connections := s.connections.set number c }

/-- One turn of connection `number`: what is queued is written before the next frame is read. -/
def turn (s : Server) (number : Nat) : Server :=
  ((s.doing number Connection.flush).doing number Connection.select).doing number Connection.leave

def turns : Nat → Server → (number : Nat) → Server
  | 0, s, _ => s
  | n + 1, s, number => turns n (s.turn number) number

/-- What a viewer sees of its connection until all is quiet. -/
structure Seen where
  frames : List Outbound
  running : Bool

/-- The viewer of connection `number` sends frames. A turn for each of them, and one for the last
answer, write everything they lead to. -/
def exchange (s : Server) (number : Nat) (frames : List Inbound) : Option (Seen × Server) := do
  let before ← s.connections[number]?
  let s := turns (before.inbox.length + frames.length + 1) (s.arrive number frames) number
  let after ← s.connections[number]?
  return (⟨after.written.drop before.written.length, after.running⟩, s)

/-- What was written to a connection is dropped from its record. -/
def forget (s : Server) (number : Nat) : Server :=
  { s with connections := s.connections.modify number (fun c => { c with written := [] }) }

def step (s : Server) (e : Event) : Server × Outcome :=
  let (host, outcome) := s.host.step e
  ({ s with host }, outcome)

/-- What can happen to a server, one thing at a time. The parts of a connection's turn may lie apart,
and so may the finding of a channel and the taking of a place at it. -/
inductive Action where
  | host (e : Event)
  | look (id : String)
  | join (channel : Nat)
  | connect (id : String)
  | arrive (number : Nat) (frame : Inbound)
  | flush (number : Nat)
  | select (number : Nat)
  | leave (number : Nat)
  | turn (number : Nat)

def act (s : Server) : Action → Server
  | .host e => (s.step e).1
  | .look id => (s.look id).2
  | .join channel => s.join channel
  | .connect id => (s.connect id).2
  | .arrive number frame => s.arrive number [frame]
  | .flush number => s.doing number Connection.flush
  | .select number => s.doing number Connection.select
  | .leave number => s.doing number Connection.leave
  | .turn number => s.turn number

def run (s : Server) (actions : List Action) : Server := actions.foldl act s

end Server

end PagedTables
