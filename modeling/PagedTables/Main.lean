import PagedTables.Launch
import PagedTables.Socket
import PagedTables.Uuid
import Std.Async.Signal
import Std.Async.TCP
import Std.Sync.Channel

namespace PagedTables.Main

open Std.Async

/-- Some codes of the system come with a minus. -/
def systemCode (code : UInt32) : UInt32 := min code (0 - code)

def fileError : IO.Error → FileError
  | .noFileOrDirectory _ _ _ => .notFound
  | .permissionDenied _ _ _ => .denied
  | .inappropriateType _ code _ => if systemCode code = 20 then .notDirectory else .isDirectory
  | .invalidArgument _ code _ => if systemCode code = 36 then .nameTooLong else .nulInName
  | e => .other (toString e)

def bindError : IO.Error → BindError
  | .resourceBusy _ _ => .inUse
  | .permissionDenied _ _ _ => .denied
  | e => .other (toString e)

def readFile (path : String) : IO (Except FileError ByteArray) := do
  try
    return .ok (← IO.FS.readBinFile path)
  catch e => return .error (fileError e)

def readFiles (paths : List String) : IO Files := do
  let readings ← paths.mapM (fun path => do return (path, ← readFile path))
  return ⟨fun path => (readings.lookup path).getD (.error .notFound)⟩

/-- The settings and the files that they name. -/
def filesFor (config : String) : IO Files := do
  let files ← readFiles [config]
  match Config.load files config with
  | .error _ => return files
  | .ok settings => readFiles (config :: settings.datasets.map Source.path)

def freshIds : Nat → IO (List String)
  | 0 => return []
  | n + 1 => do
    let bytes ← IO.getRandomBytes 16
    return Uuid.ofRandom bytes.toList :: (← freshIds n)

def finish (failed : Option LaunchError) : IO UInt32 := do
  match failed with
  | none => return 0
  | some e =>
    IO.eprintln s!"Error: {e.message}"
    return 1

/-- What the loop that keeps the server is told. -/
inductive Notice where
  | opened (client : TCP.Socket.Client)
  | arrived (peer : Nat) (data : ByteArray)
  | ended (peer : Nat)
  | stop

instance : Inhabited Notice := ⟨.stop⟩

/-- A network connection and what waits to be written to it. -/
structure Peer where
  number : Nat
  socket : Socket
  outbox : Std.CloseableChannel ByteArray
  writer : AsyncTask Unit

structure Live where
  server : Server
  peers : List Peer := []
  opened : Nat := 0

partial def acceptAll (listener : TCP.Socket.Server) (inbox : Std.Channel Notice) : Async Unit := do
  let client ← listener.accept
  discard <| inbox.send (.opened client)
  acceptAll listener inbox

partial def readAll (client : TCP.Socket.Client) (peer : Nat) (inbox : Std.Channel Notice) :
    Async Unit := do
  let data ← try client.recv? 65536 catch _ => pure none
  match data with
  | some data =>
    discard <| inbox.send (.arrived peer data)
    readAll client peer inbox
  | none => discard <| inbox.send (.ended peer)

partial def writeAll (client : TCP.Socket.Client) (outbox : Std.CloseableChannel ByteArray) :
    Async Unit := do
  let data ← await (← outbox.recv)
  match data with
  | some data =>
    client.send data
    writeAll client outbox
  | none => client.shutdown

/-- Bytes go to a peer, which is closed once its socket is. -/
def Live.give (live : Live) (peer : Peer) (bytes : List UInt8) : IO Live := do
  let reaction := peer.socket.receive live.server bytes
  unless reaction.reply.isEmpty do
    discard <| peer.outbox.send (ByteArray.mk reaction.reply.toArray)
  let live := { live with server := reaction.server }
  match reaction.socket with
  | .closed =>
    discard <| EIO.toBaseIO peer.outbox.close
    return live
  | socket => return { live with peers := live.peers ++ [{ peer with socket }] }

/-- Every peer gets what waits for it, the one with the given number after its bytes. -/
def Live.settle (live : Live) (number : Nat) (bytes : List UInt8) : IO Live := do
  let (first, others) := live.peers.partition (fun p => p.number = number)
  let live ← first.foldlM (fun live p => live.give p bytes) { live with peers := [] }
  others.foldlM (fun live p => live.give p []) live

def Live.welcome (live : Live) (client : TCP.Socket.Client) (inbox : Std.Channel Notice) :
    IO Live := do
  let number := live.opened
  let outbox ← Std.CloseableChannel.new
  let writer ← Async.toIO (writeAll client outbox)
  discard <| Async.toIO (readAll client number inbox)
  return { live with
    opened := number + 1
    peers := live.peers ++ [{ number, socket := .start, outbox, writer }] }

def Live.hangUp (live : Live) (number : Nat) : IO Live := do
  let (gone, peers) := live.peers.partition (fun p => p.number = number)
  let server := gone.foldl (fun server p => p.socket.hangUp server) live.server
  for peer in gone do discard <| EIO.toBaseIO peer.outbox.close
  { live with server, peers }.settle number []

/-- Waits until everything is written, for five seconds at most. -/
def drain (writers : List (AsyncTask Unit)) : (tenths : Nat) → IO Unit
  | 0 => return
  | tenths + 1 => do
    if ← writers.allM (fun w => IO.hasFinished w.run) then return
    IO.sleep 100
    drain writers tenths

/-- The channels are closed first, so that every viewer is told. -/
def Live.stop (live : Live) : IO Unit := do
  let (server, _) := live.server.step .shutdown
  let writers := live.peers.map Peer.writer
  let live ← { live with server }.settle live.opened []
  for peer in live.peers do discard <| EIO.toBaseIO peer.outbox.close
  drain writers 50

partial def loop (inbox : Std.Channel Notice) (live : Live) : IO Unit := do
  match ← IO.wait (← inbox.recv) with
  | .stop => live.stop
  | .opened client => loop inbox (← live.welcome client inbox)
  | .arrived peer data => loop inbox (← live.settle peer data.toList)
  | .ended peer => loop inbox (← live.hangUp peer)

def listen (port : Nat) : IO (Except BindError TCP.Socket.Server) := do
  try
    let listener ← TCP.Socket.Server.mk
    listener.bind (.v4 ⟨.ofParts 0 0 0 0, port.toUInt16⟩)
    listener.listen 1024
    return .ok listener
  catch e => return .error (bindError e)

def serve (files : Files) (config : String) : IO UInt32 := do
  let count := (Config.load files config).toOption.elim 0 (fun c => c.datasets.length)
  match Launch.prepare files config (← freshIds count) .loopback with
  | .error e => finish (some e)
  | .ok (port, server) =>
    match ← listen port with
    | .error e => finish (some (.bind port e))
    | .ok listener =>
      let inbox ← Std.Channel.new
      let interrupt ← Signal.Waiter.mk .sigint false
      let interrupted ← interrupt.wait
      discard <| Async.toIO (do
        discard <| await interrupted
        discard <| inbox.send .stop)
      discard <| Async.toIO (acceptAll listener inbox)
      loop inbox { server }
      return 0

def check (files : Files) (config : String) : IO UInt32 := do
  let (lines, failed) := Launch.check files config
  lines.forM (fun line => IO.println line)
  finish failed

end PagedTables.Main

def main (args : List String) : IO UInt32 := do
  let environment ← IO.getEnv "CONFIG_PATH"
  match PagedTables.CommandLine.parse environment args with
  | .usageError =>
    IO.eprintln "Usage: viewer-server <serve|check|help> [--config <CONFIG>]"
    return 2
  | .help task =>
    let text := PagedTables.CommandLine.helpText environment task
    IO.print (if ← (← IO.getStdout).isTty then text else PagedTables.Styled.plain text)
    return 0
  | .run task config =>
    let files ← PagedTables.Main.filesFor config
    match task with
    | .serve => PagedTables.Main.serve files config
    | .check => PagedTables.Main.check files config
