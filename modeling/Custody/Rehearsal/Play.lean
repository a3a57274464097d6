import Custody.Ceremony.Call
import Custody.Ceremony.Listener
import Custody.Rehearsal.World
/-!
# Calls in a rehearsal

Calls of one coordinator, one after the other or all at a time, and listeners without a trigger.
-/

namespace Custody.Rehearsal

open Ceremony (Outcome)

/-- What a call has come to, and how long it took in milliseconds. -/
structure Played where
  result : Except Error Answer
  elapsed : Nat

namespace World

/-- The task of a call that has a request. -/
def taskOf (config : Config) (id : Nat) (call : Call) (request : ActionRequest) : Task where
  id := id
  ceremony := call.ceremony config
  request := some request
  timeout := config.timeout / Config.milli
  cancel := none

/-- What a call's task has come to. -/
def played (w : World) (call : Call) (id start : Nat) : Played :=
  match w.ending? id with
  | some (.returned result, time) => ⟨result >>= call.conclude, time - start⟩
  | _ => ⟨.error (.timeout call.channel.name), w.now - start⟩

/-- Plays calls that all start now. A call that is refused before anything is sent is over at
once. -/
def playTogether (w : World) (config : Config) (calls : List Call) : List Played × World :=
  let start := w.now
  let numbered := (calls.zipIdx w.next).map fun (call, id) =>
    (call, id, call.accept w.clock (start * Config.milli) config)
  let tasks := numbered.filterMap fun (call, id, request) =>
    request.toOption.map (taskOf config id call)
  let w := { w with next := w.next + calls.length }.run tasks
  let results := numbered.map fun (call, id, request) =>
    match request with
    | .error e => ⟨.error e, 0⟩
    | .ok _ => w.played call id start
  (results, w)

/-- Plays a call. -/
def play (w : World) (config : Config) (call : Call) : Played × World :=
  match w.playTogether config [call] with
  | (played :: _, w) => (played, w)
  | ([], w) => (⟨.error (.timeout call.channel.name), 0⟩, w)

/-- Plays calls one after the other. -/
def playEach (w : World) (config : Config) : List Call → List Played × World
  | [] => ([], w)
  | call :: rest =>
    let (played, w) := w.play config call
    let (others, w) := w.playEach config rest
    (played :: others, w)

/-- Plays a listener: one who subscribes to a channel and waits until a deadline, while others
follow a script. -/
def playListener (w : World) (key : ChannelKey) (deadline : Nat) (cancel : Option Nat)
    (script : List (Nat × Outside)) : Outcome × Nat × World :=
  let id := w.next
  let task : Task :=
    ⟨id, ⟨key, key.purpose.action, .listen⟩, none, deadline, cancel⟩
  let start := w.now
  let events := (bursts script).map fun (time, ops) =>
    (start + time, Occurrence.input (.outside ops))
  let w := { w with
    agenda := w.agenda ++ [(start, .launch task)] ++ events
    next := w.next + 1 }
  let w := runFor (w.agenda.length + w.cost task) w [id]
  match w.ending? id with
  | some (outcome, time) => (outcome, time - start, w)
  | none => (.cancelled, w.now - start, w)

/-- Plays a wait on an open subscription, which is no part of the hub, while others follow a script
until the wait is over. -/
def playSubscription (w : World) (sub : Subscription) (key : ChannelKey) (deadline : Nat)
    (cancel : Option Nat) (script : List (Nat × Outside)) :
    Outcome × Nat × Subscription × World :=
  let ((outcome, elapsed), sub) := sub.await key deadline cancel
  let ops := (script.filter fun (time, _) => time ≤ elapsed).map Prod.snd
  (outcome, elapsed, sub, w.happen (.input (.outside ops)))

end World

end Custody.Rehearsal
