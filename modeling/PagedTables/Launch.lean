import PagedTables.CommandLine
import PagedTables.Config
import PagedTables.Server

namespace PagedTables

/-- Why the server cannot listen on a port. -/
inductive BindError where
  | inUse
  | denied
  | other (text : String)
deriving DecidableEq

/-- Why the program stops with an error. -/
inductive LaunchError where
  | config (e : ConfigError)
  | noDatasets
  | load (e : LoadError)
  | register (e : RegisterError)
  | bind (port : Nat) (e : BindError)
deriving DecidableEq

def BindError.message : BindError → String
  | inUse => "Address already in use (os error 98)"
  | denied => "Permission denied (os error 13)"
  | other text => text

def LaunchError.message : LaunchError → String
  | config e => e.message
  | noDatasets => "no [[datasets]] configured"
  | load e => s!"load: {e.message}"
  | register e => s!"register: {e.message}"
  | bind port e => s!"bind api :{port}: {e.message}"

namespace Launch

/-- The settings, which have to name a dataset. -/
def settings (files : Files) (path : String) : Except LaunchError Config := do
  let config ← (Config.load files path).mapError .config
  if config.datasets.isEmpty then .error .noDatasets
  return config

/-- One line about a dataset; one without an id will get one when it is registered. -/
def reportLine (source : Source) (d : Dataset) : String :=
  let id := if d.id = "" then "<generated>" else d.id
  s!"{source.path}\t{id}\t{d.title}\t{d.rowCount} rows\t{d.columns.length} columns"

/-- The lines for the datasets up to the first that does not load, and its error. -/
def reportEach (files : Files) : List Source → List String × Option LoadError
  | [] => ([], none)
  | source :: sources =>
    match source.load files with
    | .error e => ([], some e)
    | .ok d =>
      let (lines, failed) := reportEach files sources
      (reportLine source d :: lines, failed)

/-- Loads every dataset and reports it, without serving any. -/
def check (files : Files) (path : String) : List String × Option LaunchError :=
  match settings files path with
  | .error e => ([], some e)
  | .ok config =>
    let (lines, failed) := reportEach files config.datasets
    (lines, failed.map .load)

/-- Loads and registers the datasets one by one. A dataset without an id takes the first of the
fresh ones that is left. -/
def registerEach (files : Files) :
    List Source → List String → Server → Except LaunchError Server
  | [], _, server => .ok server
  | source :: sources, fresh, server => do
    let d ← (source.load files).mapError .load
    let (server, outcome) := server.step (.register (fresh.headD "") d)
    match outcome with
    | .registerFailed e => .error (.register e)
    | _ => registerEach files sources (if d.id = "" then fresh.tail else fresh) server

/-- A server with all its datasets, and the port that it is to listen on. -/
def prepare (files : Files) (path : String) (fresh : List String) (network : Network) :
    Except LaunchError (Nat × Server) := do
  let config ← settings files path
  let server ← registerEach files config.datasets fresh
    (Server.start config.targetName config.wsBuffer network)
  return (config.apiPort, server)

/-- Starts to listen on the port, which `refusal?` may refuse. -/
def serve (files : Files) (path : String) (fresh : List String) (network : Network)
    (refusal? : Nat → Option BindError) : Except LaunchError Server := do
  let (port, server) ← prepare files path fresh network
  match refusal? port with
  | some e => .error (.bind port e)
  | none => return server

end Launch

end PagedTables
