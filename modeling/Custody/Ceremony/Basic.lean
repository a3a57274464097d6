import Custody.Session.Request
import Custody.Wait
/-!
# The course of a ceremony

A ceremony sends one trigger, opens one subscription and waits for a result, all within one
deadline; the configuration says whether the trigger or the subscription comes first. It is a
machine: in each phase it takes what happens (`Event`) and asks for what is to be done (`Effect`).
It never asks for anything twice, and every subscription that was opened is released when the
ceremony is over, however it ends. `Plan.listen` is the course of one who only waits, without a
trigger; there the deadline bounds the wait alone.
-/

namespace Custody

namespace Ceremony

/-- The order of a ceremony's parts. -/
inductive Plan
  | triggerFirst
  | subscribeFirst
  /-- No trigger: only a subscription and the wait. -/
  | listen
  deriving DecidableEq, Repr

/-- How a ceremony is over. -/
inductive Outcome
  | returned (result : Except Error CeremonyResult)
  /-- The caller has given it up. -/
  | cancelled

/-- Where a ceremony is. -/
inductive Phase
  /-- The subscription has been asked for, the trigger has not. -/
  | subscribing
  /-- The trigger has been sent; `early` says whether the subscription is open. -/
  | triggering (early : Bool)
  /-- The trigger is acknowledged, the subscription has been asked for. -/
  | attaching
  /-- The subscription has been asked for, and there is no trigger. -/
  | opening
  /-- The subscription is open and is being read. -/
  | waiting
  | finished (outcome : Outcome)

/-- What happens to a ceremony. -/
inductive Event
  /-- The subscription is open. -/
  | attached
  /-- The subscription cannot be opened. -/
  | attachFailed (e : Error)
  /-- The control plane has taken the trigger. -/
  | acknowledged
  /-- The control plane has refused the trigger. -/
  | refused (e : Error)
  /-- The subscription's stream has a payload. -/
  | message (payload : String)
  /-- The subscription's stream has ended. -/
  | ended
  | deadline
  | cancelled
  deriving DecidableEq

/-- What a ceremony asks for. -/
inductive Effect
  | subscribe
  | notify
  | release
  deriving DecidableEq, Repr

end Ceremony

/-- What a ceremony is about. -/
structure Ceremony where
  channel : ChannelKey
  /-- What the control plane is asked to do. -/
  action : Action
  plan : Ceremony.Plan
  deriving DecidableEq

namespace Ceremony

/-- The first phase and what is asked for there. -/
def start (c : Ceremony) : Phase × List Effect :=
  match c.plan with
  | .triggerFirst => (.triggering false, [.notify])
  | .subscribeFirst => (.subscribing, [.subscribe])
  | .listen => (.opening, [.subscribe])

/-- The error of a trigger that failed. -/
def triggerError (c : Ceremony) (reason : String) : Error :=
  .triggerFailed
    (c.action.diagnostic ++ " for session " ++ c.channel.session.text ++ ": " ++ reason)

/-- The error of a subscription that was not open in time. -/
def subscribeError (c : Ceremony) : Error :=
  .timeout ("subscription to " ++ c.channel.name)

/-- The end with an error. -/
def fail (e : Error) : Phase :=
  .finished (.returned (.error e))

/-- What is asked for when a ceremony ends whose subscription may be open. -/
def releaseIf : Bool → List Effect
  | true => [.release]
  | false => []

/-- The phase after a stream event in the waiting phase. -/
def afterWait (c : Ceremony) (event : StreamEvent) : Phase × List Effect :=
  match Wait.step c.channel.purpose .awaiting event with
  | .awaiting => (.waiting, [])
  | wait => (.finished (.returned (wait.outcome c.channel)), [.release])

/-- Takes what happens. What cannot happen in a phase changes nothing. -/
def step (c : Ceremony) : Phase → Event → Phase × List Effect
  | .subscribing, .attached => (.triggering true, [.notify])
  | .subscribing, .attachFailed e => (fail e, [])
  | .subscribing, .deadline => (fail c.subscribeError, [])
  | .subscribing, .cancelled => (.finished .cancelled, [])
  | .triggering true, .acknowledged => (.waiting, [])
  | .triggering false, .acknowledged => (.attaching, [.subscribe])
  | .triggering early, .refused e => (fail (c.triggerError e.message), releaseIf early)
  | .triggering early, .deadline => (fail (c.triggerError "deadline elapsed"), releaseIf early)
  | .triggering early, .cancelled => (.finished .cancelled, releaseIf early)
  | .attaching, .attached => (.waiting, [])
  | .attaching, .attachFailed e => (fail e, [])
  | .attaching, .deadline => (fail c.subscribeError, [])
  | .attaching, .cancelled => (.finished .cancelled, [])
  | .opening, .attached => (.waiting, [])
  | .opening, .attachFailed e => (fail e, [])
  | .opening, .cancelled => (.finished .cancelled, [])
  | .waiting, .message payload => c.afterWait (.message payload)
  | .waiting, .ended => c.afterWait .ended
  | .waiting, .deadline => c.afterWait .deadline
  | .waiting, .cancelled => (.finished .cancelled, [.release])
  | phase, _ => (phase, [])

/-- Takes events in order: the phase after them and all that was asked for. -/
def run (c : Ceremony) (phase : Phase) : List Event → Phase × List Effect
  | [] => (phase, [])
  | event :: rest =>
    let (phase, effects) := c.step phase event
    let (phase, more) := c.run phase rest
    (phase, effects ++ more)

/-- The ceremony is over. -/
def Phase.outcome? : Phase → Option Outcome
  | .finished outcome => some outcome
  | _ => none

/-- A subscription may be opened in this phase. -/
def Phase.awaitsAttachment : Phase → Bool
  | .subscribing | .attaching | .opening => true
  | _ => false

end Ceremony

end Custody
