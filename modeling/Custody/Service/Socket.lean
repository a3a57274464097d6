import Custody.Service.Http
/-!
# Sockets of the service

A socket carries one subscription. The service forwards every payload of the receiver as a text
frame as soon as it can; when the channel is closed it sends what is left, then a close frame, and
is done. It answers pings, passes over other frames, and detaches the receiver when the client
closes, goes away or sends a control frame that is too long.

`Service.settle` lets every socket take what its receiver holds. Between two settlings a receiver
may fall behind.
-/

namespace Custody.Service

/-- A frame that a client receives. -/
inductive Sent
  | text (payload : String)
  | pong
  | close
  deriving DecidableEq, Repr

/-- A frame that a client sends. -/
inductive Received
  | text
  | binary
  | ping (payload : String)
  | close
  deriving DecidableEq, Repr

/-- The most bytes that the payload of a control frame may have. -/
def controlLimit : Nat := 125

/-- The frame ends the connection: the client closes, or breaks the rules of frames. -/
def Received.isLast : Received → Bool
  | text | binary => false
  | ping payload => controlLimit < payload.utf8ByteSize
  | close => true

/-- A client's connection. -/
structure Socket where
  id : Nat
  receiver : ReceiverId
  /-- The frames that have been sent and that the client has not read, first to last. -/
  outbox : List Sent
  /-- The service still forwards. -/
  isOpen : Bool
  deriving DecidableEq, Repr

/-- What a client finds when it looks for a frame. -/
inductive Looked
  | frame (frame : Sent)
  | nothing
  /-- The connection is over. -/
  | ended
  deriving DecidableEq, Repr

end Custody.Service

namespace Custody

/-- The service: its hub and its sockets. -/
structure Service where
  hub : Hub
  sockets : List Service.Socket
  /-- The number of the next socket. -/
  next : Nat

namespace Service

/-- A service without clients. -/
def new (hub : Hub) : Service :=
  ⟨hub, [], 0⟩

/-- Lets one socket take what its receiver holds. -/
def forward (hub : Hub) (socket : Socket) : Socket × Hub :=
  if socket.isOpen then
    let (payloads, ended, hub) := hub.drain socket.receiver
    let outbox := socket.outbox ++ payloads.map .text
    if ended then
      ({ socket with outbox := outbox ++ [.close], isOpen := false },
        (hub.drop socket.receiver).2)
    else
      ({ socket with outbox }, hub)
  else
    (socket, hub)

/-- Lets sockets forward, one after the other. -/
def forwardAll (hub : Hub) : List Socket → List Socket × Hub
  | [] => ([], hub)
  | socket :: rest =>
    let (socket, hub) := forward hub socket
    let (rest, hub) := forwardAll hub rest
    (socket :: rest, hub)

/-- Lets every socket take what its receiver holds. -/
def settle (service : Service) : Service :=
  let (sockets, hub) := forwardAll service.hub service.sockets
  { service with sockets, hub }

/-- Answers a request. -/
def request (service : Service) (request : Request) : Response × Service :=
  let (response, hub) := handle service.hub request
  (response, { service with hub })

/-- Answers a handshake: the number of the new socket, or why there is none. -/
def connect (service : Service) (path : String) : Except Response (Nat × Service) :=
  match handshake service.hub path with
  | .error response => .error response
  | .ok (receiver, hub) =>
    .ok (service.next,
      { hub
        sockets := service.sockets ++ [⟨service.next, receiver, [], true⟩]
        next := service.next + 1 })

/-- The socket with a number. -/
def socket? (service : Service) (id : Nat) : Option Socket :=
  service.sockets.find? (·.id == id)

/-- Puts a socket in the place of the one with its number. -/
def put (service : Service) (socket : Socket) : Service :=
  { service with
    sockets := service.sockets.map fun other => if other.id = socket.id then socket else other }

/-- What a client finds. -/
def look (service : Service) (id : Nat) : Looked × Service :=
  match service.socket? id with
  | none => (.ended, service)
  | some socket =>
    match socket.outbox with
    | frame :: rest => (.frame frame, service.put { socket with outbox := rest })
    | [] => (if socket.isOpen then .nothing else .ended, service)

/-- Detaches the receiver of a socket that is still open. -/
def detach (service : Service) (socket : Socket) : Service :=
  if socket.isOpen then
    { service.put { socket with isOpen := false } with
      hub := (service.hub.drop socket.receiver).2 }
  else
    service

/-- Takes a frame of a client and says whether it could be sent. -/
def take (service : Service) (id : Nat) (frame : Received) : Bool × Service :=
  match service.socket? id with
  | none => (false, service)
  | some socket =>
    if !socket.isOpen then (false, service)
    else if frame.isLast then (true, service.detach socket)
    else
      match frame with
      | .ping _ => (true, service.put { socket with outbox := socket.outbox ++ [.pong] })
      | _ => (true, service)

/-- A client goes away; says whether it was there. -/
def disconnect (service : Service) (id : Nat) : Bool × Service :=
  match service.socket? id with
  | none => (false, service)
  | some socket =>
    let service := service.detach socket
    (true, { service with sockets := service.sockets.filter fun other => other.id ≠ id })

/-- Forgets the channels that nobody listens on. -/
def sweep (service : Service) : Service :=
  { service with hub := service.hub.prune.2 }

end Service

end Custody
