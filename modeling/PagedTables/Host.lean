import PagedTables.Service

namespace PagedTables

/-- A service over its channels, with the messages that the host's own handler got. The service is
gone once it was dropped; its channels remain. -/
structure Host (W : Type) where
  service : Option Service
  world : W
  received : List (String × Json) := []

/-- What can happen to a service and its channels. Channels are given by number. -/
inductive Event where
  /-- `fresh` becomes the id of a dataset that has none. -/
  | register (fresh : String) (d : Dataset)
  | dispatch (id : String) (msg : Json)
  | sendData (channel : Nat) (d : Dataset) (tag : DataTag) (window : RowWindow)
  | shutdown
  /-- A service that is gone may be dropped again. -/
  | drop
  /-- The host opens a channel of its own. -/
  | create (target id : String) (opening : Json)
  | deliver (channel : Nat) (msg : Json)
  | send (channel : Nat) (msg : Json)
  | close (channel : Nat)
  /-- The host takes over the messages that arrive on a channel. -/
  | listen (channel : Nat)

inductive Outcome where
  | done
  | noService
  | registered (id : String)
  | registerFailed (e : RegisterError)
  | dispatchFailed (e : DispatchError)
  | channelFailed (e : ChannelError)
  | report (r : ShutdownReport)
  | created (channel : Nat)
  /-- Whether anyone was there to get the message. -/
  | delivered (taken : Bool)

namespace Host

variable {W : Type} [Transport W]

def start (target : String) (w : W) : Host W := ⟨some { target }, w, []⟩

/-- The effect of an operation that changes channels only. -/
def settle {ε : Type} (h : Host W) (failed : ε → Outcome) (r : Except ε W) : Host W × Outcome :=
  match r with
  | .ok w => ({ h with world := w }, .done)
  | .error e => (h, failed e)

/-- A message goes to whoever handles the channel. The service answers it for the dataset with the
id of the channel, and does nothing once it is gone. -/
def deliver (h : Host W) (channel : Nat) (msg : Json) : Host W × Outcome :=
  match Transport.receiver? h.world channel with
  | none => (h, .delivered false)
  | some (id, .recorder) => ({ h with received := h.received ++ [(id, msg)] }, .delivered true)
  | some (id, .service) =>
    match h.service with
    | none => (h, .delivered true)
    | some s =>
      match s.dispatch h.world id msg with
      | .ok w => ({ h with world := w }, .delivered true)
      | .error _ => (h, .delivered true)

def step (h : Host W) : Event → Host W × Outcome
  | .register fresh d =>
    match h.service with
    | none => (h, .noService)
    | some s =>
      match s.register h.world fresh d with
      | .ok (id, s, w) => ({ h with service := some s, world := w }, .registered id)
      | .error e => (h, .registerFailed e)
  | .dispatch id msg =>
    match h.service with
    | none => (h, .noService)
    | some s => h.settle .dispatchFailed (s.dispatch h.world id msg)
  | .sendData channel d tag window =>
    match h.service with
    | none => (h, .noService)
    | some _ => h.settle .dispatchFailed (Service.sendData h.world channel d tag window)
  | .shutdown =>
    match h.service with
    | none => (h, .noService)
    | some s =>
      let (report, s, w) := s.shutdown h.world
      ({ h with service := some s, world := w }, .report report)
  | .drop => ({ h with service := none }, .done)
  | .create target id opening =>
    match Transport.create h.world target id opening .recorder with
    | .ok (channel, w) => ({ h with world := w }, .created channel)
    | .error e => (h, .channelFailed e)
  | .deliver channel msg => h.deliver channel msg
  | .send channel msg => h.settle .channelFailed (Transport.send h.world channel msg)
  | .close channel => h.settle .channelFailed (Transport.close h.world channel)
  | .listen channel => ({ h with world := Transport.listen h.world channel .recorder }, .done)

def run (h : Host W) (events : List Event) : Host W :=
  events.foldl (fun h e => (h.step e).1) h

end Host

end PagedTables
