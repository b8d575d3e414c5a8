import PagedTables.Json.Value

namespace PagedTables

/-- What a transport may refuse to do. -/
inductive Refusal where
  | opening
  | sending
  | closing
deriving DecidableEq

/-- Why a channel did not do what was asked; the text is the id of the channel. -/
inductive ChannelError where
  | closed (id : String)
  | detached (id : String)
  | full (id : String)
  | refused (what : Refusal) (id : String)
deriving DecidableEq

def Refusal.message (id : String) : Refusal → String
  | opening => s!"cannot open '{id}'"
  | sending => s!"send on '{id}' refused"
  | closing => s!"close of '{id}' refused"

def ChannelError.message : ChannelError → String
  | closed id => s!"channel '{id}' is closed"
  | detached id => s!"channel '{id}' has no connected peer"
  | full id => s!"channel '{id}' outbound queue is full"
  | refused what id => s!"transport: {what.message id}"

/-- Who gets the messages that arrive on a channel. -/
inductive Handler where
  /-- The service, which answers them. -/
  | service
  /-- The host, which keeps them. -/
  | recorder
deriving DecidableEq

/-- Channels between the service and its viewers. A channel is known by its number in the order of
creation; several channels may have one id. An operation that fails changes nothing. -/
class Transport (W : Type) where
  isOpen : W → Nat → Bool
  send : W → Nat → Json → Except ChannelError W
  close : W → Nat → Except ChannelError W
  create : W → (target id : String) → (opening : Json) → Handler → Except ChannelError (Nat × W)
  listen : W → Nat → Handler → W
  /-- The id of the channel and the one who gets a message that arrives on it now. -/
  receiver? : W → Nat → Option (String × Handler)

end PagedTables
