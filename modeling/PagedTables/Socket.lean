import PagedTables.Server
import PagedTables.WebSocket.Frame

namespace PagedTables

/-- The server's end of a network connection. -/
inductive Socket where
  /-- The head of a request is still coming in. -/
  | request (taken : List UInt8)
  /-- A viewer that is connected to a channel. -/
  | viewer (number : Nat) (reader : WebSocket.Reader)
  | closed

/-- What the server does about bytes that came in. -/
structure Reaction where
  socket : Socket
  server : Server
  reply : List UInt8

namespace Socket

def start : Socket := .request []

/-- No head of a request may be longer. -/
def maxHead : Nat := 65536

def bytesOf (s : String) : List UInt8 := s.toUTF8.toList

def frameBytes : Outbound → List UInt8
  | .text s => WebSocket.encode WebSocket.Opcode.text (bytesOf s)
  | .close => WebSocket.encode WebSocket.Opcode.close []

def inbound : WebSocket.Arrival → Inbound
  | .text s => .text s
  | .binary => .other
  | .ping _ => .other
  | .pong => .other
  | .close => .close
  | .violation => .close

/-- Pings and the end of a connection are answered without the service. -/
def echo : WebSocket.Arrival → List UInt8
  | .ping payload => WebSocket.encode WebSocket.Opcode.pong payload
  | .close => WebSocket.encode WebSocket.Opcode.close []
  | _ => []

def viewerReceives (number : Nat) (reader : WebSocket.Reader) (server : Server)
    (bytes : List UInt8) : Reaction :=
  let (arrivals, reader) := reader.feed bytes
  match server.exchange number (arrivals.map inbound) with
  | none => ⟨.closed, server, []⟩
  | some (seen, server) =>
    ⟨if seen.running then .viewer number reader else .closed, server.forget number,
      seen.frames.flatMap frameBytes ++ arrivals.flatMap echo⟩

/-- The handshake comes before the first frame of the connection. -/
def upgrade (server : Server) (id key : String) (rest : List UInt8) : Reaction :=
  match server.connect id with
  | (.error _, server) => ⟨.closed, server, []⟩
  | (.ok number, server) =>
    let handshake := Http.head 101 [("connection", "upgrade"), ("upgrade", "websocket"),
      ("sec-websocket-accept", WebSocket.acceptKey key)]
    let reaction := viewerReceives number {} server rest
    { reaction with reply := bytesOf handshake ++ reaction.reply }

def respond (server : Server) (r : Http.Request) (rest : List UInt8) : Reaction :=
  let key := r.webSocketKey?
  let (response, server) := server.respond r.method r.target key.isSome
  match response.status, Server.route r.target, key with
  | 101, .channel (some id), some key => upgrade server id key rest
  | _, _, _ => ⟨.closed, server, bytesOf (Http.responseText response)⟩

def requestReceives (taken : List UInt8) (server : Server) : Reaction :=
  match Http.splitHead [] taken with
  | none => ⟨if maxHead < taken.length then .closed else .request taken, server, []⟩
  | some (head, rest) =>
    match Http.Request.ofHead? head with
    | some r => respond server r rest
    | none => ⟨.closed, server, bytesOf (Http.responseText ⟨400, none, ""⟩)⟩

/-- Bytes come in, perhaps none; whatever the server has to write by then is written. -/
def receive (socket : Socket) (server : Server) (bytes : List UInt8) : Reaction :=
  match socket with
  | .request taken =>
    if bytes.isEmpty then ⟨socket, server, []⟩ else requestReceives (taken ++ bytes) server
  | .viewer number reader => viewerReceives number reader server bytes
  | .closed => ⟨.closed, server, []⟩

/-- The other end is gone. -/
def hangUp (socket : Socket) (server : Server) : Server :=
  match socket with
  | .viewer number _ =>
    match server.exchange number [.close] with
    | some (_, server) => server.forget number
    | none => server
  | _ => server

end Socket

end PagedTables
