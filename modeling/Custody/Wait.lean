import Custody.Envelope
/-!
# Waiting for a result

A wait reads one channel until a payload carries a complete result, the stream ends, or the deadline
passes. It is a machine of four states (`Wait.step`): whatever is not a complete result for the
channel's purpose leaves it where it is, and the three other states are final.

`Wait.run` is a wait over events with their times, in which the deadline takes its place among the
events of the stream.
-/

namespace Custody

/-- What happens to one who waits. -/
inductive StreamEvent
  | message (payload : String)
  /-- The stream has ended. -/
  | ended
  | deadline
  deriving DecidableEq, Repr

/-- How far a wait is. -/
inductive Wait
  | awaiting
  | complete (result : CeremonyResult)
  | closed
  | timedOut
  deriving DecidableEq

namespace Wait

/-- The wait is over. -/
def isOver : Wait → Bool
  | awaiting => false
  | _ => true

/-- Takes one event. -/
def step (purpose : Purpose) : Wait → StreamEvent → Wait
  | awaiting, .message payload =>
    match resultOf? purpose payload with
    | some result => complete result
    | none => awaiting
  | awaiting, .ended => closed
  | awaiting, .deadline => timedOut
  | wait, _ => wait

/-- What the one who waits is told. A wait that was not over has run out of time. -/
def outcome (key : ChannelKey) : Wait → Except Error CeremonyResult
  | complete result => .ok result
  | closed => .error (.channelClosed key.name)
  | awaiting | timedOut => .error (.timeout key.name)

/-- Waits over events with their times, which do not decrease, until a deadline: the outcome and
its time. An event at the very time of the deadline comes first. -/
def run (key : ChannelKey) (deadline : Nat) :
    List (Nat × StreamEvent) → Except Error CeremonyResult × Nat
  | [] => (outcome key timedOut, deadline)
  | (time, event) :: rest =>
    if deadline < time then (outcome key timedOut, deadline)
    else
      let wait := step key.purpose awaiting event
      if wait.isOver then (outcome key wait, time) else run key deadline rest

end Wait

end Custody
