import PagedTables.Text.Base64
import PagedTables.WebSocket.Sha1

namespace PagedTables.WebSocket

/-- What the server answers to the key of a request for a web socket. -/
def acceptKey (key : String) : String :=
  Base64.encode (Sha1.digest (key ++ "258EAFA5-E914-47DA-95CA-C5AB0DC85B11").toUTF8.toList)

/-- One frame as it is sent. A message may be cut into several, of which only the last is `final`.
-/
structure Frame where
  final : Bool
  opcode : Nat
  payload : List UInt8

namespace Opcode

def continuation : Nat := 0

def text : Nat := 1

def binary : Nat := 2

def close : Nat := 8

def ping : Nat := 9

def pong : Nat := 10

end Opcode

/-- No frame may be longer. -/
def maxPayload : Nat := 1 <<< 24

/-- The length follows the first byte, in one, three or nine bytes. -/
def lengthBytes (n : Nat) : List UInt8 :=
  if n < 126 then [UInt8.ofNat n]
  else if n < 1 <<< 16 then 126 :: Sha1.bigEndian 2 n
  else 127 :: Sha1.bigEndian 8 n

/-- A whole message from the server, which masks nothing. -/
def encode (opcode : Nat) (payload : List UInt8) : List UInt8 :=
  UInt8.ofNat (128 + opcode) :: (lengthBytes payload.length ++ payload)

inductive Decoded where
  | frame (f : Frame) (rest : List UInt8)
  | incomplete
  /-- The bytes are no frame that a client may send. -/
  | violation

def natOfBytes (bytes : List UInt8) : Nat := bytes.foldl (fun n b => n * 256 + b.toNat) 0

/-- Every fourth byte is masked with the same byte of the key. -/
def unmask (key payload : List UInt8) : List UInt8 :=
  payload.mapIdx (fun i b => b ^^^ key.getD (i % 4) 0)

def decodeBody (first : UInt8) (size : Nat) (rest : List UInt8) : Decoded :=
  if maxPayload < size then .violation
  else if rest.length < 4 + size then .incomplete
  else
    .frame ⟨128 ≤ first, (first &&& 0x0f).toNat,
      unmask (rest.take 4) ((rest.drop 4).take size)⟩ ((rest.drop 4).drop size)

/-- A client masks all its frames. The three bits after the first have no meaning. -/
def decode : List UInt8 → Decoded
  | first :: second :: rest =>
    let short := (second &&& 0x7f).toNat
    let wide := if short = 126 then 2 else if short = 127 then 8 else 0
    if first &&& 0x70 ≠ 0 ∨ second < 128 then .violation
    else if rest.length < wide then .incomplete
    else
      let size := if wide = 0 then short else natOfBytes (rest.take wide)
      decodeBody first size (rest.drop wide)
  | _ => .incomplete

/-- What a client has sent. -/
inductive Arrival where
  | text (s : String)
  | binary
  | ping (payload : List UInt8)
  | pong
  | close
  | violation

/-- The bytes that are not yet a frame, and the parts of a message whose last frame has not come. -/
structure Reader where
  bytes : List UInt8 := []
  message : Option (Nat × List UInt8) := none

def messageOf (opcode : Nat) (payload : List UInt8) : Arrival :=
  if opcode = Opcode.binary then .binary
  else
    match String.fromUTF8? (ByteArray.mk payload.toArray) with
    | some s => .text s
    | none => .violation

/-- A frame of data opens a message or goes on with the one that is open. -/
def Reader.data (r : Reader) (f : Frame) : Option Arrival × Reader :=
  let message : Option (Nat × List UInt8) :=
    match r.message with
    | none => if f.opcode = Opcode.continuation then none else some (f.opcode, f.payload)
    | some (opcode, taken) =>
      if f.opcode = Opcode.continuation then some (opcode, taken ++ f.payload) else none
  match message with
  | none => (some .violation, r)
  | some (opcode, taken) =>
    if f.final then (some (messageOf opcode taken), { r with message := none })
    else (none, { r with message := some (opcode, taken) })

/-- Frames that control the connection may come between those of a message. -/
def Reader.frame (r : Reader) (f : Frame) : Option Arrival × Reader :=
  if f.opcode = Opcode.close then (some .close, r)
  else if f.opcode = Opcode.ping then (some (.ping f.payload), r)
  else if f.opcode = Opcode.pong then (some .pong, r)
  else if f.opcode ≤ Opcode.binary then r.data f
  else (some .violation, r)

/-- Every frame takes bytes away, so their number bounds the frames. -/
def Reader.frames : (most : Nat) → Reader → List Arrival × Reader
  | 0, r => ([], r)
  | most + 1, r =>
    match decode r.bytes with
    | .incomplete => ([], r)
    | .violation => ([.violation], { r with bytes := [] })
    | .frame f rest =>
      let (arrival, r) := { r with bytes := rest }.frame f
      let (arrivals, r) := Reader.frames most r
      (arrival.toList ++ arrivals, r)

def Reader.feed (r : Reader) (bytes : List UInt8) : List Arrival × Reader :=
  let r := { r with bytes := r.bytes ++ bytes }
  Reader.frames (r.bytes.length + 1) r

end PagedTables.WebSocket
