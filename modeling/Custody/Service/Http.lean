import Custody.Hub.Basic
import Custody.Service.MediaType
import Custody.Service.Publish
import Custody.Text.Percent
/-!
# Requests and answers of the service

The service fronts a hub. It tells its state, takes payloads to publish, and lets clients subscribe
to a channel over a socket. `route` finds what a path names, and `handle` answers a request that is
no handshake; only a publish that is answered with 200 changes the hub. A handshake is answered by
`handshake`, which finds the channel to attach to.
-/

namespace Custody.Service

open Json

/-- A request without the parts that the service does not look at. -/
structure Request where
  method : String
  /-- The path as it is written, with the query. The name of the service may stand before it. -/
  path : String
  contentType : Option String
  body : String
  deriving DecidableEq, Repr

/-- An answer: its status and its body, if that is JSON. -/
structure Response where
  status : Nat
  body : Option Value

/-- An answer whose body is empty or no JSON. -/
def Response.plain (status : Nat) : Response :=
  ⟨status, none⟩

/-- The answer to a request that the hub refuses. -/
def Response.refused (e : BrokerError) : Response :=
  ⟨400, some (.object [("error", .string e.message)])⟩

/-- What a path names. -/
inductive Route
  | health
  | publish
  /-- A subscription, with the channel's segment as it is written. -/
  | subscribe (segment : String)
  deriving DecidableEq, Repr

/-- A path without its query and without the name of a service before it. -/
def barePath (path : String) : List Char :=
  let rest :=
    match path.toList.span fun c => c ≠ ':' && c ≠ '/' with
    | (_ :: _, ':' :: '/' :: '/' :: rest) => rest.dropWhile fun c => !"/?#".toList.contains c
    | _ => path.toList
  rest.takeWhile fun c => c ≠ '?' && c ≠ '#'

/-- What a path names. -/
def route (path : String) : Option Route :=
  match ((barePath path).splitOn '/').map String.ofList with
  | ["", "health"] => some .health
  | ["", "v1", "publish"] => some .publish
  | ["", "v1", "subscribe", segment] => if segment = "" then none else some (.subscribe segment)
  | _ => none

/-- The largest number of bytes of a body. -/
def maxBody : Nat := 2 * 1024 * 1024

/-- The version that the service reports. -/
def version : String := "0.1.0"

/-- The state of the service. -/
def healthValue (hub : Hub) : Value :=
  .object
    [("status", .string "ok"), ("service", .string "result-broker-svc"),
      ("version", .string version), ("channels", .nat hub.channelCount)]

/-- The header names a type whose bodies are JSON. -/
def isJsonType (contentType : Option String) : Bool :=
  match contentType.bind MediaType.ofText? with
  | some mediaType => mediaType.isJson
  | none => false

/-- The status of a body that is no publish request. -/
def faultStatus : Json.Fault → Nat
  | .malformed => 400
  | .mismatch => 422

/-- Publishes the payload of a body. -/
def publish (hub : Hub) (request : Request) : Response × Hub :=
  if isJsonType request.contentType = false then (.plain 415, hub)
  else if maxBody < request.body.utf8ByteSize then (.plain 413, hub)
  else
    match PublishRequest.ofTree (Tree.ofPrefix request.body) with
    | .error fault => (.plain (faultStatus fault), hub)
    | .ok message =>
      match hub.publish message.channel message.payload with
      | .error e => (.refused e, hub)
      | .ok (receivers, hub) => (⟨200, some (.object [("receivers", .nat receivers)])⟩, hub)

/-- Answers a request that is no handshake. -/
def handle (hub : Hub) (request : Request) : Response × Hub :=
  if request.method = "OPTIONS" then (.plain 200, hub)
  else
    match route request.path with
    | none => (.plain 404, hub)
    | some .health =>
      if request.method = "GET" then (⟨200, some (healthValue hub)⟩, hub)
      else if request.method = "HEAD" then (.plain 200, hub)
      else (.plain 405, hub)
    | some .publish =>
      if request.method = "POST" then publish hub request else (.plain 405, hub)
    | some (.subscribe _) =>
      if request.method = "GET" then (.plain 400, hub) else (.plain 405, hub)

/-- The path of a subscription to a segment. -/
def subscribePath (segment : String) : String :=
  "/v1/subscribe/" ++ segment

/-- The channel that a handshake on a path asks for, or the answer that refuses it. -/
def destination (path : String) : Except Response String :=
  match route path with
  | some (.subscribe segment) =>
    match Text.Percent.decode? segment with
    | none => .error (.plain 400)
    | some channel =>
      match ChannelName.fault? channel with
      | some fault => .error (.refused (.ofFault fault))
      | none => .ok channel
  | some .publish => .error (.plain 405)
  | some .health => .error (.plain 200)
  | none => .error (.plain 404)

/-- Answers a handshake on a path: attaches a receiver, or refuses. -/
def handshake (hub : Hub) (path : String) : Except Response (ReceiverId × Hub) :=
  match destination path with
  | .error response => .error response
  | .ok channel =>
    match hub.subscribe channel with
    | .error e => .error (.refused e)
    | .ok attached => .ok attached

end Custody.Service
