import Custody.Ceremony.Fleet
/-!
# Rehearsed clusters and brokers

What a cluster does on a trigger, and how long a broker takes to open a subscription, for runs on a
clock of milliseconds that nobody has to wait for.
-/

namespace Custody.Rehearsal

/-- Payloads that a cluster publishes once somebody listens: it looks at once and then every
`period` milliseconds, for as long as its patience lasts. -/
structure Response where
  payloads : List String
  /-- The channel is closed after the payloads. -/
  closes : Bool
  period : Nat
  patience : Option Nat
  deriving DecidableEq, Repr

/-- How a cluster behaves. -/
structure Cluster where
  /-- The time until it answers a trigger; none if it never does. -/
  delay : Option Nat
  /-- The error that it answers with. -/
  failure : Option Error
  /-- What it does to the hub, with times from the trigger on, which do not decrease. -/
  script : ActionRequest → List (Nat × Outside)
  response : ActionRequest → Option Response

/-- What a broker makes of a subscription that is asked for. -/
inductive Attachment
  /-- It is opened. -/
  | granted
  /-- It is opened on another channel, on which nothing is published. -/
  | astray
  | refused (e : Error)
  deriving DecidableEq, Repr

/-- How a broker behaves when a subscription is asked for. -/
structure Broker where
  /-- The time until it answers; none if it never does. -/
  delay : Option Nat
  attachment : Attachment
  deriving DecidableEq, Repr

/-- A broker that opens every subscription at once. -/
def Broker.prompt : Broker :=
  ⟨some 0, .granted⟩

/-- The channel that the result of a request is published on. -/
def channelOf (request : ActionRequest) : String :=
  ChannelKey.name ⟨request.action.purpose, request.session⟩

namespace Cluster

/-- How long a cluster waits for a subscriber by default, in milliseconds. -/
def standardPatience : Nat := 5000

/-- The cluster that acknowledges every trigger at once and answers it with payloads as soon as
somebody listens; with a failure it only refuses. -/
def responding (failure : Option Error) (patience : Nat)
    (payloads : ActionRequest → Option (List String)) : Cluster where
  delay := some 0
  failure := failure
  script _ := []
  response request :=
    if failure.isSome then none
    else (payloads request).map fun payloads => ⟨payloads, false, 10, some patience⟩

/-- The cluster that follows a script. An operation without a channel is on the channel of the
request. -/
def scripted (delay : Option Nat) (failure : Option Error)
    (script : String → List (Nat × Outside)) : Cluster where
  delay := delay
  failure := failure
  script request := script (channelOf request)
  response _ := none

end Cluster

/-- Puts together what stands at the same time. -/
def bursts : List (Nat × Outside) → List (Nat × List Outside)
  | [] => []
  | (time, op) :: rest =>
    match bursts rest with
    | (later, ops) :: more =>
      if later = time then (time, op :: ops) :: more else (time, [op]) :: (later, ops) :: more
    | [] => [(time, [op])]

end Custody.Rehearsal
