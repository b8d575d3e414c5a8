import PagedTables.Json.Scan
import PagedTables.Text.Blank

namespace PagedTables

inductive Method where
  | get
  | head
  | other
deriving DecidableEq

structure Response where
  status : Nat
  contentType : Option String
  body : String

def Method.ofName (s : String) : Method :=
  if s = "GET" then .get else if s = "HEAD" then .head else .other

namespace Http

def hexPair? (a b : Char) : Option UInt8 := do
  let a ← Json.hexValue? a
  let b ← Json.hexValue? b
  return UInt8.ofNat (a * 16 + b)

/-- The bytes that a percent-encoded text stands for; what is not encoded stands for itself. -/
def percentDecode : List Char → List UInt8
  | [] => []
  | '%' :: a :: b :: rest =>
    match hexPair? a b with
    | some byte => byte :: percentDecode rest
    | none => 37 :: percentDecode (a :: b :: rest)
  | c :: rest => (String.singleton c).toUTF8.toList ++ percentDecode rest
termination_by s => s.length

/-- A request without its body. The names of the headers are in small letters. -/
structure Request where
  method : Method
  target : String
  headers : List (String × String)

/-- The head of a request, `taken` last first, and what follows the empty line at its end. -/
def splitHead (taken : List UInt8) : List UInt8 → Option (List UInt8 × List UInt8)
  | 13 :: 10 :: 13 :: 10 :: rest => some (taken.reverse, rest)
  | b :: rest => splitHead (b :: taken) rest
  | [] => none

def header? (line : String) : Option (String × String) :=
  match line.splitOn ":" with
  | name :: value :: more => some (name.toLower, trimmed (":".intercalate (value :: more)))
  | _ => none

namespace Request

def ofHead? (head : List UInt8) : Option Request := do
  let text ← String.fromUTF8? (ByteArray.mk head.toArray)
  match text.splitOn "\r\n" with
  | [] => none
  | first :: lines =>
    match first.splitOn " " with
    | [method, target, _] => some ⟨.ofName method, target, lines.filterMap header?⟩
    | _ => none

def header? (r : Request) (name : String) : Option String := r.headers.lookup name

/-- The key of a request that asks for a web socket, in the one version that there is. -/
def webSocketKey? (r : Request) : Option String := do
  let connection ← r.header? "connection"
  let upgrade ← r.header? "upgrade"
  let version ← r.header? "sec-websocket-version"
  if (connection.splitOn ",").any (fun word => (trimmed word).toLower = "upgrade") &&
      upgrade.toLower = "websocket" && version = "13" then
    r.header? "sec-websocket-key"
  else none

end Request

def reason (status : Nat) : String :=
  if status = 101 then "Switching Protocols"
  else if status = 200 then "OK"
  else if status = 404 then "Not Found"
  else if status = 405 then "Method Not Allowed"
  else "Bad Request"

def head (status : Nat) (headers : List (String × String)) : String :=
  let lines := headers.map (fun h => s!"{h.1}: {h.2}\r\n")
  s!"HTTP/1.1 {status} {reason status}\r\n{String.join lines}\r\n"

/-- The connection is closed after each response. -/
def responseText (r : Response) : String :=
  let type := (r.contentType.map (fun type => ("content-type", type))).toList
  let size := toString r.body.utf8ByteSize
  head r.status (type ++ [("content-length", size), ("connection", "close")]) ++ r.body

end Http

end PagedTables
