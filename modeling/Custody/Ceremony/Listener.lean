import Custody.Ceremony.Basic
import Custody.Subscription
/-!
# Waiting on an open subscription

A wait over a subscription whose messages are known in advance, for one who did not open it through
a broker. The subscription is released when the wait is over, however it ends.
-/

namespace Custody.Subscription

open Ceremony (Outcome)

/-- The stream's events, all of which are there from the start. -/
def events (sub : Subscription) : List (Nat × StreamEvent) :=
  sub.messages.map (fun message => (0, .message message)) ++ if sub.ends then [(0, .ended)] else []

/-- Waits for a result on a subscription until a deadline, unless the caller gives up before: how
the wait ended, when, and the subscription after it. -/
def await (sub : Subscription) (key : ChannelKey) (deadline : Nat) (cancel : Option Nat) :
    (Outcome × Nat) × Subscription :=
  let (result, time) := Wait.run key deadline sub.events
  let ending := match cancel with
    | none => (.returned result, time)
    | some given => if given < time then (.cancelled, given) else (.returned result, time)
  (ending, sub.release)

end Custody.Subscription
