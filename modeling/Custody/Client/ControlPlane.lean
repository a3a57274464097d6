import Custody.Client.Status
import Custody.Client.Target.Page
import Custody.Session.Request
/-!
# The client of a control plane

A trigger is posted as JSON to one endpoint. Every answer with a success status acknowledges it;
every other answer, and every failure to get an answer in time, is a transport error. A request is
posted once.
-/

namespace Custody.Client

/-- A client that posts triggers to a service. -/
structure ControlPlane where
  /-- The address of the service, without slashes at its end. -/
  url : String
  /-- How long a request may take, answer included, in milliseconds. -/
  timeout : Nat
  deriving DecidableEq, Repr

/-- What a peer has been posted. -/
structure Post where
  path : String
  contentType : String
  body : String
  deriving DecidableEq, Repr

/-- A peer that answers every request alike. -/
structure Answerer where
  host : String
  status : Nat
  body : String
  /-- The time until its answer is complete, in milliseconds. -/
  delay : Nat
  deriving DecidableEq, Repr

/-- The status and the body that the peer's answer has for the one who asked. A peer that has only
an interim status to give has failed. -/
def Answerer.answer (peer : Answerer) : Nat × String :=
  if Status.isInterim peer.status then (500, "")
  else (peer.status, if Status.hasBody peer.status then peer.body else "")

/-- How a request ended. -/
inductive Reply
  | accepted
  | refused (status : Nat) (body : String)
  /-- Nobody could be asked. -/
  | unreachable
  /-- There was no answer in time. -/
  | late
  deriving DecidableEq, Repr

/-- What a reply is for the one who sent the trigger. -/
def Reply.outcome : Reply → Except Error Unit
  | accepted => .ok ()
  | refused status body =>
    .error (.transport ("POST failed with status: " ++ Status.text status ++ " " ++ body))
  | unreachable => .error (.transport "the control plane cannot be reached")
  | late => .error (.transport "the control plane did not answer in time")

namespace ControlPlane

/-- How long a request may take unless the client says otherwise, in milliseconds. -/
def standardTimeout : Nat := 30000

/-- The client of the service at an address. -/
def ofUrl (url : String) : ControlPlane :=
  ⟨trimSlashes url, standardTimeout⟩

/-- The address that triggers are posted to. -/
def endpoint (client : ControlPlane) : String :=
  client.url ++ "/v1/action"

/-- What a trigger is sent to. -/
def target? (client : ControlPlane) : Option Target :=
  Target.ofPage? client.endpoint

/-- The target of a trigger that comes to the peer. A client without any time asks nobody. -/
def reached? (client : ControlPlane) (peer : Answerer) : Option Target :=
  client.target?.filter fun target => target.host = peer.host && client.timeout ≠ 0

/-- Requests come to the peer. -/
def reaches (client : ControlPlane) (peer : Answerer) : Bool :=
  (client.reached? peer).isSome

/-- The reply to a trigger, in a world with one peer. -/
def reply (client : ControlPlane) (peer : Answerer) : Reply :=
  if !client.reaches peer then .unreachable
  else if client.timeout < peer.delay then .late
  else
    let (status, body) := peer.answer
    if Status.isSuccess status then .accepted else .refused status body

/-- What the peer is posted for a trigger. -/
def post? (client : ControlPlane) (peer : Answerer) (request : ActionRequest) : Option Post :=
  (client.reached? peer).map fun target => ⟨target.path, "application/json", request.render⟩

/-- How long an exchange with a peer takes, in milliseconds. -/
def duration (client : ControlPlane) (peer : Answerer) : Reply → Nat
  | .accepted | .refused _ _ => peer.delay
  | .unreachable => 0
  | .late => client.timeout

end ControlPlane

end Custody.Client
