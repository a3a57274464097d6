import Custody.Proofs.Fleet.Calm
import Custody.Proofs.Service.History
/-!
# What a service does to its hub

All that a service does to its hub is operations (`Service.operations`): a request publishes or does
nothing, a handshake subscribes, a client that leaves drops its receiver, and a socket that takes
what its receiver holds reads it, and drops it at its end.

* `Service.Request.published?`, `Service.handle_of_published`, `Service.handle_of_not_published`:
  what a request publishes.
* `Service.apply_hub`: the hub after what happens.
-/

namespace Custody

open Json

/-! ## Requests that publish -/

namespace Service

/-- What a request publishes. -/
def Request.published? (request : Request) : Option PublishRequest :=
  if request.method = "POST" ∧ route request.path = some .publish ∧
      isJsonType request.contentType = true ∧ request.body.utf8ByteSize ≤ maxBody then
    match PublishRequest.ofTree (Tree.ofPrefix request.body) with
    | .ok message => if ChannelName.fault? message.channel = none then some message else none
    | .error _ => none
  else
    none

variable {hub : Hub} {request : Request}

theorem published?_eq_some_iff {message : PublishRequest} :
    request.published? = some message ↔
      (request.method = "POST" ∧ route request.path = some .publish ∧
        isJsonType request.contentType = true ∧ request.body.utf8ByteSize ≤ maxBody) ∧
      PublishRequest.ofTree (Tree.ofPrefix request.body) = .ok message ∧
      ChannelName.fault? message.channel = none := by
  unfold Request.published?
  constructor
  · intro h
    split at h
    · next hfit =>
      split at h
      · next found hbody =>
        split at h
        · next hvalid =>
          obtain rfl := Option.some.inj h
          exact ⟨hfit, hbody, hvalid⟩
        · cases h
      · cases h
    · cases h
  · rintro ⟨hfit, hbody, hvalid⟩
    simp only [hfit, hbody, hvalid, and_self, if_true]

/-- **A request that publishes** is answered with the number of those who hear it. -/
theorem handle_of_published {message : PublishRequest}
    (h : request.published? = some message) (hub : Hub) :
    handle hub request =
      (⟨200, some (.object [("receivers", .nat (hub.subscriberCount message.channel))])⟩,
        (hub.apply (.publish message.channel message.payload)).2) := by
  obtain ⟨⟨hmethod, hroute, htype, hsize⟩, hbody, hvalid⟩ := published?_eq_some_iff.1 h
  have hsize' : ¬ maxBody < request.body.utf8ByteSize := Nat.not_lt.2 hsize
  have hoptions : request.method ≠ "OPTIONS" := by
    rw [hmethod]
    decide
  simp only [handle, if_neg hoptions, hroute, if_pos hmethod, publish, htype, Bool.true_eq_false,
    if_false, hsize', hbody, Hub.publish, hvalid, Hub.apply]

theorem publish_of_not_published (hmethod : request.method = "POST")
    (hroute : route request.path = some .publish) (h : request.published? = none) (hub : Hub) :
    (publish hub request).2 = hub ∧ (publish hub request).1.status ≠ 200 := by
  unfold publish
  split
  · exact ⟨rfl, by simp [Response.plain]⟩
  · next htype =>
    split
    · exact ⟨rfl, by simp [Response.plain]⟩
    · next hsize =>
      split
      · next fault _ => exact ⟨rfl, by cases fault <;> simp [Response.plain, faultStatus]⟩
      · next message hbody =>
        cases hvalid : ChannelName.fault? message.channel with
        | none =>
          have hsome : request.published? = some message :=
            published?_eq_some_iff.2 ⟨⟨hmethod, hroute, by simpa using htype, Nat.not_lt.1 hsize⟩,
              hbody, hvalid⟩
          rw [h] at hsome
          cases hsome
        | some fault =>
          simp only [Hub.publish, hvalid]
          exact ⟨trivial, by simp [Response.refused]⟩

/-- **A request that publishes nothing** leaves the hub as it is. -/
theorem handle_of_not_published (h : request.published? = none) (hub : Hub) :
    (handle hub request).2 = hub ∧
      (request.method = "POST" → route request.path = some .publish →
        (handle hub request).1.status ≠ 200) := by
  unfold handle
  split
  · next hoptions =>
    exact ⟨rfl, fun hpost => absurd (hpost.symm.trans hoptions) (by decide)⟩
  · split
    · next hroute => exact ⟨rfl, fun _ hpublish => absurd (hroute.symm.trans hpublish) nofun⟩
    · next hroute =>
      refine ⟨?_, fun _ hpublish => absurd (hroute.symm.trans hpublish) nofun⟩
      split
      · rfl
      · split <;> rfl
    · next hroute =>
      split
      · next hmethod =>
        obtain ⟨hhub, hstatus⟩ := publish_of_not_published hmethod hroute h hub
        exact ⟨hhub, fun _ _ => hstatus⟩
      · next hmethod => exact ⟨rfl, fun hpost => absurd hpost hmethod⟩
    · next hroute =>
      refine ⟨?_, fun _ hpublish => absurd (hroute.symm.trans hpublish) nofun⟩
      split <;> rfl

/-! ## Operations -/

/-- What others than a hub's clients do by what happens to a service. -/
def Happening.outside? : Happening → Option Outside
  | .request request =>
    request.published?.map fun message => .publish message.channel message.payload
  | .close channel => some (.close channel)
  | .sweep => some .prune
  | .connect _ | .look _ | .take _ _ | .disconnect _ | .settle => none

/-- What a socket does that takes what its receiver holds. -/
def forwarding (hub : Hub) (socket : Socket) : List Hub.Operation :=
  if socket.isOpen then
    List.replicate (hub.drain socket.receiver).1.length (.receive socket.receiver) ++
      if (hub.drain socket.receiver).2.1 then [.drop socket.receiver] else []
  else
    []

/-- What sockets do that forward one after the other. -/
def forwardings (hub : Hub) : List Socket → List Hub.Operation
  | [] => []
  | socket :: rest => forwarding hub socket ++ forwardings (forward hub socket).2 rest

/-- What a client does that leaves. -/
def leaving (service : Service) (id : Nat) : List Hub.Operation :=
  match service.socket? id with
  | none => []
  | some socket => if socket.isOpen then [.drop socket.receiver] else []

/-- What is done to the hub by what happens to a service. -/
def operations (service : Service) : Happening → List Hub.Operation
  | .connect path =>
    match destination path with
    | .ok channel => [.subscribe channel]
    | .error _ => []
  | .take id frame => if frame.isLast then leaving service id else []
  | .disconnect id => leaving service id
  | .settle => forwardings service.hub service.sockets
  | happening => (happening.outside?.map Outside.operation).toList

end Service

namespace Hub

variable {hub : Hub} {id : ReceiverId}

theorem run_replicate_receive (hub : Hub) (id : ReceiverId) (n : Nat) :
    (hub.run (List.replicate n (.receive id))).2 = hub.skim id n := by
  induction n generalizing hub with
  | zero => exact (hub.skim_zero id).symm
  | succ n ih => rw [List.replicate_succ, run_cons, ih, apply_receive, skim_skim, Nat.add_comm]

/-- **What is read at once is read by operations.** -/
theorem drain_hub (hs : hub.Sound) (id : ReceiverId) :
    (hub.drain id).2.2 =
      (hub.run (List.replicate (hub.drain id).1.length (.receive id))).2 := by
  cases hr : hub.receiver? id with
  | none => rw [drain_of_none hr]; rfl
  | some r => rw [drain_eq hs hr, run_replicate_receive]

end Hub

namespace Service

variable {hub : Hub} {service : Service} {id : Nat}

theorem forward_hub (hs : hub.Sound) (socket : Socket) :
    (forward hub socket).2 = (hub.run (forwarding hub socket)).2 := by
  unfold forward forwarding
  split
  · rw [Hub.run_append, ← Hub.drain_hub hs]
    dsimp only
    split <;> rfl
  · rfl

theorem forwardAll_hub (hs : hub.Sound) (sockets : List Socket) :
    (forwardAll hub sockets).2 = (hub.run (forwardings hub sockets)).2 := by
  induction sockets generalizing hub with
  | nil => rfl
  | cons socket rest ih =>
    have hnext := forward_hub hs socket
    rw [forwardings, Hub.run_append, ← hnext, ← ih (hnext ▸ Hub.sound_run hs _)]
    rfl

theorem detach_hub (service : Service) (socket : Socket) :
    (service.detach socket).hub =
      (service.hub.run (if socket.isOpen then [.drop socket.receiver] else [])).2 := by
  unfold detach
  split <;> rfl

theorem fault?_of_destination {path channel : String} (h : destination path = .ok channel) :
    ChannelName.fault? channel = none := by
  unfold destination at h
  split at h
  · split at h
    · cases h
    · split at h
      · cases h
      · next hvalid =>
        obtain rfl := Except.ok.inj h
        exact hvalid
  · cases h
  · cases h
  · cases h

/-- **What happens to a service does operations to its hub.** -/
theorem apply_hub (hs : service.hub.Sound) (happening : Happening) :
    (service.apply happening).2.hub = (service.hub.run (service.operations happening)).2 := by
  cases happening with
  | request request =>
    show (handle service.hub request).2 = _
    cases h : request.published? with
    | none => simp [operations, Happening.outside?, h, handle_of_not_published h, Hub.run]
    | some message =>
      simp [operations, Happening.outside?, h, handle_of_published h, Hub.run, Outside.operation]
  | connect path =>
    simp only [apply, connect, handshake, operations]
    cases hd : destination path with
    | error response => rfl
    | ok channel =>
      simp only [Hub.subscribe, fault?_of_destination hd, Hub.run, Hub.apply]
  | look id =>
    simp only [apply, look, operations, Happening.outside?]
    split
    · rfl
    · split <;> rfl
  | take id frame =>
    simp only [apply, take, operations, leaving]
    cases service.socket? id with
    | none => cases frame.isLast <;> rfl
    | some socket =>
      by_cases ho : socket.isOpen = true
      · by_cases hl : frame.isLast = true
        · simp [ho, hl, detach_hub]
        · cases frame <;> simp_all [Hub.run, put]
      · simp [ho, Hub.run]
  | disconnect id =>
    simp only [apply, disconnect, operations, leaving]
    cases service.socket? id with
    | none => rfl
    | some socket => exact detach_hub service socket
  | close channel => rfl
  | settle => exact forwardAll_hub hs service.sockets
  | sweep => rfl

end Service

end Custody
