import Custody.Ceremony.Call
import Custody.Rehearsal.Cluster
/-!
# Rehearsals

A rehearsal runs ceremonies against a cluster and a broker whose behaviour is known, on a clock that
jumps from one occurrence to the next. The agenda holds what will happen, in the order of time; what
an occurrence brings about at once stands before everything else of that instant, and a deadline
after it. A cluster that waits for a subscriber is kept apart and comes to its turn when somebody
listens (`World.due?`).
-/

namespace Custody.Rehearsal

open Ceremony (Effect)

/-- A ceremony to be run. -/
structure Task where
  id : Nat
  ceremony : Ceremony
  /-- What its trigger sends. -/
  request : Option ActionRequest
  /-- The deadline, in milliseconds from the start. -/
  timeout : Nat
  /-- When the caller gives it up, in milliseconds from the start. -/
  cancel : Option Nat

/-- What can happen in a rehearsal. -/
inductive Occurrence
  | launch (task : Task)
  | input (input : Fleet.Input)

/-- The occurrence is a deadline. -/
def Occurrence.isDeadline : Occurrence → Bool
  | .input (.event _ .deadline) => true
  | _ => false

/-- A response that waits for a subscriber. -/
structure Responder where
  channel : String
  response : Response
  /-- When the cluster began to look. -/
  start : Nat

/-- The state of a rehearsal. -/
structure World where
  cluster : Cluster
  broker : Broker
  clock : Clock
  /-- The time in milliseconds. -/
  now : Nat
  fleet : Fleet
  /-- What will happen, with its time, in the order of time. -/
  agenda : List (Nat × Occurrence)
  responders : List Responder
  /-- The tasks that have been started. -/
  tasks : List Task
  /-- What the cluster has been sent. -/
  requests : List ActionRequest
  /-- The hub's answers to what others did by a script. -/
  log : List Hub.Answer
  /-- The tasks that are over, with the time of their end. -/
  ends : List (Nat × Nat)
  /-- The number of the next task. -/
  next : Nat

namespace World

/-- The state at time zero. -/
def new (hub : Hub) (cluster : Cluster) (broker : Broker) : World where
  cluster := cluster
  broker := broker
  clock := .standard
  now := 0
  fleet := .new hub
  agenda := []
  responders := []
  tasks := []
  requests := []
  log := []
  ends := []
  next := 0

/-- What others do at one time is one occurrence, so that nobody reads before all of it is done. -/
def join? : Occurrence → Occurrence → Option Occurrence
  | .input (.outside ops), .input (.outside more) => some (.input (.outside (ops ++ more)))
  | _, _ => none

/-- An occurrence at a time comes before another one at its time: those at the same time keep their
order, but a deadline is the last of its instant. -/
def comesBefore (time : Nat) (o : Occurrence) (t : Nat) (other : Occurrence) : Bool :=
  time < t || (time == t && other.isDeadline && !o.isDeadline)

/-- Puts an occurrence into an agenda, after what is there for its time except a deadline. -/
def insert (time : Nat) (o : Occurrence) : List (Nat × Occurrence) → List (Nat × Occurrence)
  | [] => [(time, o)]
  | (t, first) :: rest =>
    if comesBefore time o t first then (time, o) :: (t, first) :: rest
    else
      match if time = t then join? first o else none with
      | some both => (t, both) :: rest
      | none => (t, first) :: insert time o rest

/-- Plans an occurrence. -/
def schedule (w : World) (time : Nat) (o : Occurrence) : World :=
  { w with agenda := insert time o w.agenda }

/-- Plans an occurrence after a delay. What comes without delay comes before everything else. -/
def after (w : World) (delay : Nat) (o : Occurrence) : World :=
  if delay = 0 then { w with agenda := (w.now, o) :: w.agenda }
  else w.schedule (w.now + delay) o

/-- Plans an answer, if there will be one. -/
def answer (w : World) (delay : Option Nat) (input : Fleet.Input) : World :=
  match delay with
  | none => w
  | some delay => w.after delay (.input input)

/-- Plans the bursts of a script. -/
def follow (w : World) (script : List (Nat × List Outside)) : World :=
  script.foldl (fun w (time, ops) => w.after time (.input (.outside ops))) w

/-- A trigger reaches the cluster. -/
def notify (w : World) (id : Nat) (request : ActionRequest) : World :=
  let w := { w with
    requests := w.requests ++ [request]
    responders := w.responders ++
      ((w.cluster.response request).map (Responder.mk (channelOf request) · w.now)).toList }
  let w := w.answer w.cluster.delay
    (.event id (match w.cluster.failure with
      | none => .acknowledged
      | some e => .refused e))
  w.follow (bursts (w.cluster.script request))

/-- Does what a run asks for. -/
def serve (w : World) : Nat × Effect → World
  | (id, .notify) =>
    match (w.tasks.find? (·.id == id)).bind Task.request with
    | none => w
    | some request => w.notify id request
  | (id, .subscribe) =>
    w.answer w.broker.delay
      (match w.broker.attachment with
      | .granted => .attach id
      | .astray => .event id .attached
      | .refused e => .event id (.attachFailed e))
  | (_, .release) => w

/-- Notes the runs that are over. -/
def note (w : World) : World :=
  let finished := w.fleet.runs.filter fun run =>
    run.phase.outcome?.isSome && (w.ends.lookup run.id).isNone
  { w with ends := w.ends ++ finished.map fun run => (run.id, w.now) }

/-- Lets something happen. -/
def happen (w : World) : Occurrence → World
  | .launch task =>
    let (effects, fleet) := w.fleet.launch task.id task.ceremony
    let w := { w with fleet, tasks := w.tasks ++ [task] }
    let w := w.schedule (w.now + task.timeout) (.input (.event task.id .deadline))
    let w := match task.cancel with
      | none => w
      | some time => w.schedule (w.now + time) (.input (.event task.id .cancelled))
    effects.foldl (fun w effect => w.serve (task.id, effect)) w
  | .input input =>
    let (report, fleet) := w.fleet.step input
    let w := { w with fleet, log := w.log ++ report.answers }
    (report.effects.foldl serve w).note

/-- When a responder publishes, if somebody listens now: the first time it looks from now on. -/
def due? (w : World) (r : Responder) : Option Nat :=
  if w.fleet.hub.subscriberCount r.channel = 0 then
    none
  else
    let period := max 1 r.response.period
    some (r.start + (w.now - r.start + period - 1) / period * period)

/-- The cluster has stopped looking by that time. -/
def Responder.hasGivenUp (r : Responder) (time : Nat) : Bool :=
  match r.response.patience with
  | none => false
  | some patience => r.start + patience < time

/-- The responder that publishes first, and when; the rest stay. -/
def firstDue (w : World) : List Responder → Option (Nat × Responder × List Responder)
  | [] => none
  | r :: rest =>
    match w.due? r, firstDue w rest with
    | none, none => none
    | none, some (time, first, others) => some (time, first, r :: others)
    | some time, none => some (time, r, rest)
    | some time, some (later, first, others) =>
      if later < time then some (later, first, r :: others) else some (time, r, rest)

/-- A responder publishes its payloads, unless it has given up. -/
def respond (w : World) (time : Nat) (r : Responder) (others : List Responder) : World :=
  if Responder.hasGivenUp r time then
    { w with responders := others }
  else
    let ops := r.response.payloads.map (Outside.publish r.channel) ++
      (if r.response.closes then [.close r.channel] else [])
    let (_, fleet) := w.fleet.step (.outside ops)
    { w with now := time, fleet, responders := others }.note

/-- The next thing that happens, if anything will. -/
def step? (w : World) : Option World :=
  match w.agenda, w.firstDue w.responders with
  | [], none => none
  | (time, o) :: rest, none => some ({ w with now := time, agenda := rest }.happen o)
  | [], some (time, r, others) => some (w.respond time r others)
  | (time, o) :: rest, some (due, r, others) =>
    if due < time then some (w.respond due r others)
    else some ({ w with now := time, agenda := rest }.happen o)

/-- The tasks with these numbers are over. -/
def areOver (w : World) (ids : List Nat) : Bool :=
  ids.all fun id => (w.ends.lookup id).isSome

/-- Goes on until tasks are over, for at most `fuel` steps. -/
def runFor (fuel : Nat) (w : World) (ids : List Nat) : World :=
  if w.areOver ids then w
  else
    match fuel with
    | 0 => w
    | fuel + 1 =>
      match w.step? with
      | none => w
      | some w => runFor fuel w ids

/-- How many steps a task can bring about: one for each entry of its script, and those of its
launch, its answers, its deadline, its end and its response. -/
def cost (w : World) (task : Task) : Nat :=
  8 + match task.request with
    | none => 0
    | some request => (w.cluster.script request).length

/-- Runs tasks from now on until they are over. -/
def run (w : World) (tasks : List Task) : World :=
  let fuel :=
    tasks.foldl (fun total task => total + w.cost task) (w.agenda.length + w.responders.length)
  let w := tasks.foldl (fun w task => w.schedule w.now (.launch task)) w
  runFor fuel w (tasks.map Task.id)

/-- How a task ended, and when. -/
def ending? (w : World) (id : Nat) : Option (Ceremony.Outcome × Nat) :=
  match (w.fleet.run? id).bind (·.phase.outcome?), w.ends.lookup id with
  | some outcome, some time => some (outcome, time)
  | _, _ => none

end World

end Custody.Rehearsal
