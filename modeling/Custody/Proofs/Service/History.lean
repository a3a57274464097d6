import Custody.Proofs.Hub.Receiver
import Custody.Service.Server
/-!
# Histories of a service

What clients, the holder of the hub and the service itself do is put into one type
(`Service.Happening`), so that a history of a service is a list (`Service.record`), and that of a
server a list with the time that passes after each entry (`Server.play`).
-/

namespace Custody

namespace Service

/-- What can happen to a service. -/
inductive Happening
  /-- A client sends a request that is no handshake. -/
  | request (request : Request)
  | connect (path : String)
  | look (id : Nat)
  | take (id : Nat) (frame : Received)
  | disconnect (id : Nat)
  /-- One who holds the hub closes a channel. -/
  | close (channel : String)
  /-- Every socket takes what its receiver holds. -/
  | settle
  /-- The channels that nobody listens on are forgotten. -/
  | sweep
  deriving DecidableEq, Repr

/-- What is answered. -/
inductive Reply
  | answered (response : Response)
  | connected (id : Nat)
  | refused (response : Response)
  | looked (looked : Looked)
  /-- A frame could be sent, a client was there, a channel was tracked. -/
  | done (whether : Bool)
  | silent

/-- Does what happens. -/
def apply (service : Service) : Happening → Reply × Service
  | .request request =>
    let (response, service) := service.request request
    (.answered response, service)
  | .connect path =>
    match service.connect path with
    | .ok (id, service) => (.connected id, service)
    | .error response => (.refused response, service)
  | .look id =>
    let (looked, service) := service.look id
    (.looked looked, service)
  | .take id frame =>
    let (sent, service) := service.take id frame
    (.done sent, service)
  | .disconnect id =>
    let (existed, service) := service.disconnect id
    (.done existed, service)
  | .close channel =>
    (.done (service.hub.close channel).1, { service with hub := (service.hub.close channel).2 })
  | .settle => (.silent, service.settle)
  | .sweep => (.silent, service.sweep)

/-- What happens in order, each with what is answered, and the service after it. -/
def record (service : Service) : List Happening → List (Happening × Reply) × Service
  | [] => ([], service)
  | happening :: rest =>
    let (reply, service) := service.apply happening
    let (entries, service) := service.record rest
    ((happening, reply) :: entries, service)

/-- A running service under a script, each entry of which is followed by so many milliseconds. -/
def Server.play (server : Server) : List (Happening × Nat) → List (Happening × Reply) × Server
  | [] => ([], server)
  | (happening, millis) :: rest =>
    let (reply, service) := server.service.apply happening
    let (entries, server) := ({ server with service }.pass millis).play rest
    ((happening, reply) :: entries, server)

end Service

end Custody
