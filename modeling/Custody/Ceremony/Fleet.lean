import Custody.Ceremony.Basic
import Custody.Hub.Basic
/-!
# Ceremonies over one hub

Any number of ceremonies run at a time over one hub, and others publish on it and close its
channels. A fleet takes one input after the other (`Fleet.step`): something that others do to the
hub, or something that happens to one ceremony. After each input every ceremony that waits reads
what its receiver holds.
-/

namespace Custody

open Ceremony

/-- What others do to the hub. -/
inductive Outside
  | publish (channel payload : String)
  | close (channel : String)
  | prune
  deriving DecidableEq, Repr

/-- The operation of the hub. -/
def Outside.operation : Outside → Hub.Operation
  | publish channel payload => .publish channel payload
  | close channel => .close channel
  | prune => .prune

/-- A ceremony that has been started. -/
structure Run where
  id : Nat
  ceremony : Ceremony
  phase : Phase
  /-- The receiver that it has opened and not released. -/
  receiver : Option ReceiverId

/-- The ceremonies and their hub. -/
structure Fleet where
  hub : Hub
  /-- How many subscriptions have been opened. -/
  opened : Nat
  runs : List Run

namespace Fleet

/-- What is put to a fleet. -/
inductive Input
  /-- Others do something to the hub, all at once. -/
  | outside (ops : List Outside)
  /-- The broker opens the subscription that a run has asked for. -/
  | attach (id : Nat)
  /-- Something else happens to a run. -/
  | event (id : Nat) (e : Event)

/-- A fleet without ceremonies. -/
def new (hub : Hub) : Fleet :=
  ⟨hub, 0, []⟩

/-- The run with a number. -/
def run? (fleet : Fleet) (id : Nat) : Option Run :=
  fleet.runs.find? (·.id == id)

/-- Puts a run in the place of the one with its number. -/
def put (fleet : Fleet) (run : Run) : Fleet :=
  { fleet with runs := fleet.runs.map fun other => if other.id = run.id then run else other }

/-- Starts a ceremony and gives what it asks for. -/
def launch (fleet : Fleet) (id : Nat) (c : Ceremony) : List Effect × Fleet :=
  let (phase, effects) := c.start
  (effects, { fleet with runs := fleet.runs ++ [⟨id, c, phase, none⟩] })

/-- Releases the receiver of a run, if that is asked for. -/
def release (hub : Hub) (run : Run) (effects : List Effect) : Hub × Run :=
  match run.receiver with
  | none => (hub, run)
  | some receiver =>
    if .release ∈ effects then ((hub.drop receiver).2, { run with receiver := none })
    else (hub, run)

/-- Lets something happen to a run: the effects, the hub and the run after it. -/
def advance (hub : Hub) (run : Run) (e : Event) : List Effect × Hub × Run :=
  let (phase, effects) := run.ceremony.step run.phase e
  (effects, release hub { run with phase } effects)

/-- Opens the subscription that a run has asked for. -/
def attach (fleet : Fleet) (run : Run) : List Effect × Fleet :=
  if run.phase.awaitsAttachment then
    match fleet.hub.subscribe run.ceremony.channel.name with
    | .error e =>
      let (effects, hub, run) := advance fleet.hub run (.attachFailed e.toError)
      (effects, { fleet with hub }.put run)
    | .ok (receiver, hub) =>
      let (effects, hub, run) := advance hub { run with receiver := some receiver } .attached
      (effects, { fleet with hub, opened := fleet.opened + 1 }.put run)
  else
    ([], fleet)

/-- Reads payloads one after the other, as long as the wait goes on. -/
def readAll (c : Ceremony) (phase : Phase) : List String → Phase × List Effect
  | [] => (phase, [])
  | payload :: rest =>
    match c.step phase (.message payload) with
    | (.waiting, _) => readAll c .waiting rest
    | ended => ended

/-- Lets a run that waits read what its receiver holds. -/
def settleRun (hub : Hub) (run : Run) : Hub × Run :=
  match run.phase, run.receiver with
  | .waiting, some receiver =>
    let (payloads, ended, hub) := hub.drain receiver
    let (phase, effects) := readAll run.ceremony .waiting payloads
    let (phase, effects) :=
      if ended then
        let (phase, more) := run.ceremony.step phase .ended
        (phase, effects ++ more)
      else
        (phase, effects)
    release hub { run with phase } effects
  | _, _ => (hub, run)

/-- Lets runs read, one after the other. -/
def settleAll (hub : Hub) : List Run → Hub × List Run
  | [] => (hub, [])
  | run :: rest =>
    let (hub, run) := settleRun hub run
    let (hub, rest) := settleAll hub rest
    (hub, run :: rest)

/-- Lets every run that waits read what its receiver holds. -/
def settle (fleet : Fleet) : Fleet :=
  let (hub, runs) := settleAll fleet.hub fleet.runs
  { fleet with hub, runs }

/-- What a step of a fleet gives: the hub's answers to others, and what the runs ask for. -/
structure Report where
  answers : List Hub.Answer
  effects : List (Nat × Effect)

/-- Does one input, before anyone reads. -/
def perform (fleet : Fleet) : Input → Report × Fleet
  | .outside ops =>
    let (answers, hub) := fleet.hub.run (ops.map Outside.operation)
    (⟨answers, []⟩, { fleet with hub })
  | .attach id =>
    match fleet.run? id with
    | none => (⟨[], []⟩, fleet)
    | some run =>
      let (effects, fleet) := fleet.attach run
      (⟨[], effects.map (id, ·)⟩, fleet)
  | .event id e =>
    match fleet.run? id with
    | none => (⟨[], []⟩, fleet)
    | some run =>
      let (effects, hub, run) := advance fleet.hub run e
      (⟨[], effects.map (id, ·)⟩, { fleet with hub }.put run)

/-- Does one input and lets the runs read. -/
def step (fleet : Fleet) (input : Input) : Report × Fleet :=
  let (report, fleet) := fleet.perform input
  (report, fleet.settle)

/-- Does inputs in order. -/
def steps (fleet : Fleet) : List Input → Fleet
  | [] => fleet
  | input :: rest => (fleet.step input).2.steps rest

end Fleet

end Custody
