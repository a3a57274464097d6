import Custody.Client.ControlPlane
import Custody.Client.SocketBroker
import Custody.Rehearsal.Play
import Custody.Service.Http
/-!
# Calls over a rehearsed network

A network with two peers: a control plane that answers every trigger alike, and the broker service
over the hub of a rehearsal. Callers know them by addresses. A control plane that takes a trigger
has payloads published on the channel of the trigger as soon as somebody listens there; it looks
every millisecond.
-/

namespace Custody.Rehearsal

open Client

/-- The peers of a network. -/
structure Network where
  controlPlane : Answerer
  /-- The name of the peer that is the broker service. -/
  brokerHost : String
  /-- What is published for a purpose. -/
  payloads : Purpose → List String
  /-- The channel is closed after the payloads. -/
  closes : Bool

namespace Network

/-- What the control plane does about a trigger that it takes. -/
def response (network : Network) (request : ActionRequest) : Response :=
  ⟨network.payloads request.action.purpose, network.closes, 1, none⟩

/-- The control plane as a client finds it. -/
def cluster (network : Network) (client : ControlPlane) : Cluster :=
  let reply := client.reply network.controlPlane
  { delay := some (client.duration network.controlPlane reply)
    failure := match reply.outcome with
      | .ok _ => none
      | .error e => some e
    script := fun _ => []
    response := fun request =>
      if client.reaches network.controlPlane && Status.isSuccess network.controlPlane.status then
        some (network.response request)
      else
        none }

/-- What a client is told who asks the broker for a channel. -/
def attachment (network : Network) (client : SocketBroker) (key : ChannelKey) : Attachment :=
  match client.target key with
  | .error fault => .refused (SocketBroker.unfit fault)
  | .ok target =>
    if target.host ≠ network.brokerHost then .refused SocketBroker.unreachable
    else
      match Service.destination target.path with
      | .error response => .refused (SocketBroker.refused response.status)
      | .ok channel => if channel = key.name then .granted else .astray

/-- The broker as a client finds it who subscribes to a channel. -/
def broker (network : Network) (client : SocketBroker) (key : ChannelKey) : Broker :=
  ⟨some 0, network.attachment client key⟩

end Network

namespace World

/-- Plays a call whose caller knows the peers of a network by addresses. -/
def playOver (w : World) (network : Network) (controlPlane broker : String) (config : Config)
    (call : Call) : Played × World :=
  let client := ControlPlane.ofUrl controlPlane
  let (played, after) := { w with
    cluster := network.cluster client
    broker := network.broker (.ofUrl broker) call.channel }.play config call
  (played,
    if client.reaches network.controlPlane then after else { after with requests := w.requests })

end World

end Custody.Rehearsal
