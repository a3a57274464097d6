import Custody.Hub.ChannelName
/-!
# The hub

A hub delivers payloads to those who listen at the moment. A subscription opens a channel if there
is none of its name and attaches a receiver to it; a payload that is published goes to every
receiver that is attached to the channel then, and to nobody later. Each receiver keeps the payloads
it has not read yet, and only the last `capacity` of them: one that falls behind loses the oldest.
Closing a channel detaches its receivers, which still read what they have kept and then find their
end; the name can be opened again, as another channel.

Operations are functions on the hub; `Hub.Operation` and `Hub.apply` put them into one type, so that
a history of the hub is a list.
-/

namespace Custody

/-- The number of a receiver. -/
abbrev ReceiverId := Nat

/-- One who listens on a channel. -/
structure Receiver where
  id : ReceiverId
  channel : String
  /-- The payloads that have been delivered and not been read, first to last. -/
  pending : List String
  /-- The channel has not been closed. -/
  isOpen : Bool
  deriving DecidableEq, Repr

/-- The hub: its tracked channels and all who listen. -/
structure Hub where
  /-- How many payloads a receiver keeps. -/
  capacity : Nat
  /-- The names of the tracked channels. -/
  channels : List String
  receivers : List Receiver
  /-- The number of the next receiver. -/
  next : ReceiverId
  deriving DecidableEq, Repr

/-- What a receiver finds when it looks for a payload. -/
inductive Reading
  | payload (text : String)
  /-- Nothing now. -/
  | nothing
  /-- Nothing any more. -/
  | ended
  deriving DecidableEq, Repr

namespace Receiver

/-- The receiver is attached to the channel of this name. -/
def listensOn (receiver : Receiver) (channel : String) : Bool :=
  receiver.isOpen && receiver.channel == channel

/-- The last `capacity` items of a list. -/
def keepLast (capacity : Nat) (items : List String) : List String :=
  items.drop (items.length - capacity)

/-- The receiver after one more payload. -/
def deliver (receiver : Receiver) (capacity : Nat) (payload : String) : Receiver :=
  { receiver with pending := keepLast capacity (receiver.pending ++ [payload]) }

/-- What the receiver finds, and the receiver after that. -/
def read (receiver : Receiver) : Reading × Receiver :=
  match receiver.pending with
  | payload :: rest => (.payload payload, { receiver with pending := rest })
  | [] => (if receiver.isOpen then .nothing else .ended, receiver)

end Receiver

namespace Hub

/-- The least power of two that is not below a number. -/
def powerAtLeast (k : Nat) : Nat :=
  if k ≤ 1 then 1 else 1 <<< ((k - 1).log2 + 1)

/-- A hub without channels. Its receivers keep as many payloads as the least power of two that is
not below the given number. -/
def new (capacity : Nat) : Hub where
  capacity := powerAtLeast capacity
  channels := []
  receivers := []
  next := 0

/-- A hub whose receivers keep 64 payloads. -/
def standard : Hub :=
  new 64

/-- The number of receivers that are attached to a channel. -/
def subscriberCount (hub : Hub) (channel : String) : Nat :=
  hub.receivers.countP (·.listensOn channel)

/-- The number of tracked channels. -/
def channelCount (hub : Hub) : Nat :=
  hub.channels.length

/-- Attaches a receiver to a channel and gives its number. -/
def subscribe (hub : Hub) (channel : String) : Except BrokerError (ReceiverId × Hub) :=
  match ChannelName.fault? channel with
  | some fault => .error (.ofFault fault)
  | none =>
    .ok (hub.next,
      { hub with
        channels := if channel ∈ hub.channels then hub.channels else hub.channels ++ [channel]
        receivers := hub.receivers ++ [⟨hub.next, channel, [], true⟩]
        next := hub.next + 1 })

/-- Delivers a payload to all receivers that are attached to a channel and gives their number. -/
def publish (hub : Hub) (channel payload : String) : Except BrokerError (Nat × Hub) :=
  match ChannelName.fault? channel with
  | some fault => .error (.ofFault fault)
  | none =>
    .ok (hub.subscriberCount channel,
      { hub with
        receivers := hub.receivers.map fun r =>
          if r.listensOn channel then r.deliver hub.capacity payload else r })

/-- What a receiver finds. A number that no receiver has finds its end. -/
def receive (hub : Hub) (id : ReceiverId) : Reading × Hub :=
  match hub.receivers.find? (·.id == id) with
  | none => (.ended, hub)
  | some receiver =>
    (receiver.read.1,
      { hub with
        receivers := hub.receivers.map fun r => if r.id = id then r.read.2 else r })

/-- Detaches a receiver for good and says whether there was one. -/
def drop (hub : Hub) (id : ReceiverId) : Bool × Hub :=
  (hub.receivers.any (·.id == id),
    { hub with receivers := hub.receivers.filter fun r => r.id ≠ id })

/-- Closes a channel and says whether there was one. -/
def close (hub : Hub) (channel : String) : Bool × Hub :=
  (hub.channels.contains channel,
    { hub with
      channels := hub.channels.filter fun name => name ≠ channel
      receivers := hub.receivers.map fun r =>
        if r.channel = channel then { r with isOpen := false } else r })

/-- Forgets the channels that nobody listens on and gives their number. -/
def prune (hub : Hub) : Nat × Hub :=
  let kept := hub.channels.filter fun name => 0 < hub.subscriberCount name
  (hub.channels.length - kept.length, { hub with channels := kept })

/-- What a receiver finds until it finds nothing: the payloads, and whether it has ended. -/
def drain (hub : Hub) (id : ReceiverId) : List String × Bool × Hub :=
  match hub.receivers.find? (·.id == id) with
  | none => ([], true, hub)
  | some receiver =>
    (receiver.pending, !receiver.isOpen,
      { hub with
        receivers := hub.receivers.map fun r => if r.id = id then { r with pending := [] } else r })

/-! ## Histories -/

/-- What can happen to a hub. -/
inductive Operation
  | subscribe (channel : String)
  | publish (channel payload : String)
  | receive (id : ReceiverId)
  | drop (id : ReceiverId)
  | close (channel : String)
  | prune
  deriving DecidableEq, Repr

/-- What an operation answers. -/
inductive Answer
  | subscribed (id : ReceiverId)
  | published (receivers : Nat)
  | read (reading : Reading)
  | dropped (existed : Bool)
  | closed (existed : Bool)
  | pruned (count : Nat)
  | refused (e : BrokerError)
  deriving DecidableEq, Repr

/-- Does an operation. One that is refused changes nothing. -/
def apply (hub : Hub) : Operation → Answer × Hub
  | .subscribe channel =>
    match hub.subscribe channel with
    | .ok (id, hub) => (.subscribed id, hub)
    | .error e => (.refused e, hub)
  | .publish channel payload =>
    match hub.publish channel payload with
    | .ok (count, hub) => (.published count, hub)
    | .error e => (.refused e, hub)
  | .receive id =>
    let (reading, hub) := hub.receive id
    (.read reading, hub)
  | .drop id =>
    let (existed, hub) := hub.drop id
    (.dropped existed, hub)
  | .close channel =>
    let (existed, hub) := hub.close channel
    (.closed existed, hub)
  | .prune =>
    let (count, hub) := hub.prune
    (.pruned count, hub)

/-- Does operations in order: what each answers, and the hub after them. -/
def run (hub : Hub) : List Operation → List Answer × Hub
  | [] => ([], hub)
  | op :: rest =>
    let (answer, hub) := hub.apply op
    let (answers, hub) := hub.run rest
    (answer :: answers, hub)

end Hub

end Custody
