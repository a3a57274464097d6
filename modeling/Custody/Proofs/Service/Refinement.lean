import Custody.Proofs.Fleet.Listening
import Custody.Proofs.Json.RoundTrip
import Custody.Proofs.Service.Route
import Custody.Proofs.Service.Stream
/-!
# Sockets and receivers

To one who subscribes, a socket of the service is as good as a receiver of the hub
(`socket_refinement`): its frames carry the payloads that the receiver yields, in the same rounds,
and end with it. Between the node that publishes and the client that waits a payload passes through
the text of a request, a receiver, a frame and the client's stream, and none of them changes it.

* `Service.published?_render`: what is published by the text of a publish request.
* `Client.Frame.messages_eq`: the messages of frames, and their events.
-/

namespace Custody

open Json

/-! ## Payloads in the text of a request -/

namespace Service

theorem PublishRequest.plain_toValue (message : PublishRequest) (depth : Nat) :
    Plain (depth + 1) message.toValue := by
  refine .object fun member hmember => ?_
  simp only [List.mem_cons, List.not_mem_nil, or_false] at hmember
  rcases hmember with rfl | rfl <;> exact .string _

theorem PublishRequest.ofTree_tree (message : PublishRequest) :
    PublishRequest.ofTree message.toValue.tree = .ok message :=
  rfl

/-- **The text of a publish request publishes just its payload** on just its channel. -/
theorem published?_render {message : PublishRequest} (hvalid : ChannelName.Valid message.channel)
    (hsize : message.toValue.render.utf8ByteSize ≤ maxBody) :
    Request.published? ⟨"POST", "/v1/publish", some "application/json", message.toValue.render⟩ =
      some message := by
  have hroute : route "/v1/publish" = some .publish := by decide
  have htype : isJsonType (some "application/json") = true := by decide +kernel
  refine published?_eq_some_iff.2 ⟨⟨rfl, hroute, htype, hsize⟩, ?_,
    ChannelName.fault?_eq_none_iff.2 hvalid⟩
  rw [ofPrefix_render (message.plain_toValue 0), PublishRequest.ofTree_tree]

/-- A publish is answered with 200 just when it publishes something. -/
theorem status_publish_iff {request : Request} (hmethod : request.method = "POST")
    (hroute : route request.path = some .publish) (hub : Hub) :
    (handle hub request).1.status = 200 ↔ request.published?.isSome = true := by
  cases h : request.published? with
  | none => simpa using (handle_of_not_published h hub).2 hmethod hroute
  | some message => simp [handle_of_published h]

end Service

/-! ## Messages of frames -/

/-- The payload of a message. -/
def StreamEvent.payload? : StreamEvent → Option String
  | message payload => some payload
  | ended | deadline => none

namespace Client.Frame

/-- **The messages of frames** are those of their events up to the first end. -/
theorem messages_eq (frames : List Frame) :
    messages frames =
      ((frames.filterMap event?).takeWhile (· ≠ .ended)).filterMap StreamEvent.payload? := by
  induction frames with
  | nil => rfl
  | cons frame rest ih =>
    simp only [messages] at ih ⊢
    cases hends : frame.endsStream with
    | true =>
      have hevent : frame.event? = some .ended := by simp [event?, hends]
      simp [hends, hevent]
    | false =>
      have hevent : frame.event? = frame.message?.map .message := by simp [event?, hends]
      rw [List.takeWhile_cons_of_pos (by simp [hends]), List.filterMap_cons, List.filterMap_cons,
        hevent, ih]
      cases frame.message? with
      | none => rfl
      | some payload => simp [StreamEvent.payload?]

end Client.Frame

namespace Hub

/-- What is heard ends at most once, and last. -/
theorem takeWhile_heard (capacity : Nat) (channel : String) (rounds : List (Nat × List Operation)) :
    (((heard capacity channel rounds).map Prod.snd).takeWhile (· ≠ .ended)).filterMap
        StreamEvent.payload? =
      (heard capacity channel rounds).filterMap (·.2.payload?) := by
  induction rounds with
  | nil => rfl
  | cons round rest ih =>
    obtain ⟨time, ops⟩ := round
    have hmessages : ((Receiver.keepLast capacity (aired channel ops)).map
        fun payload => (time, StreamEvent.message payload)).map Prod.snd =
          (Receiver.keepLast capacity (aired channel ops)).map .message := by
      rw [List.map_map]
      rfl
    rw [heard, List.map_append, hmessages, List.takeWhile_append_of_pos (by simp),
      List.filterMap_append, List.filterMap_append]
    congr 1
    · rw [List.filterMap_map, List.filterMap_map]
      rfl
    · split
      · rfl
      · exact ih

/-- What is aired before a close in the first part is all that is aired. -/
theorem aired_append (channel : String) (first second : List Operation) :
    aired channel (first ++ second) =
      aired channel first ++ if .close channel ∈ first then [] else aired channel second := by
  induction first with
  | nil => simp [aired]
  | cons op rest ih =>
    cases op with
    | publish name payload =>
      by_cases hn : name = channel <;> simp [aired, hn, ih]
    | close name =>
      by_cases hn : name = channel
      · simp [aired, hn]
      · simp [aired, hn, ih, Ne.symm hn]
    | _ => simp [aired, ih]

/-- Rounds that a receiver can keep are heard whole. -/
theorem payloads_heard_of_length_le {capacity : Nat} {channel : String}
    {rounds : List (Nat × List Operation)}
    (h : ∀ round ∈ rounds, (aired channel round.2).length ≤ capacity) :
    (heard capacity channel rounds).filterMap (·.2.payload?) =
      aired channel (rounds.flatMap Prod.snd) := by
  induction rounds with
  | nil => rfl
  | cons round rest ih =>
    obtain ⟨time, ops⟩ := round
    obtain ⟨hround, hrest⟩ := List.forall_mem_cons.1 h
    rw [heard, Receiver.keepLast_of_length_le hround, List.filterMap_append, List.flatMap_cons,
      aired_append, ← ih hrest, List.filterMap_map]
    congr 1
    · exact List.filterMap_some
    · split <;> rfl

/-- What others do is all there is of what others do. -/
theorem outsides_operations (outs : List Outside) :
    outsides (outs.map Outside.operation) = outs := by
  rw [outsides, List.filterMap_map]
  exact (List.filterMap_congr fun o _ => o.outside?_operation).trans List.filterMap_some

end Hub

namespace Service

/-- The events of frames, without their times. -/
theorem map_snd_events (frames : List (Nat × Sent)) :
    (events frames).map Prod.snd = (frames.map (·.2.frame)).filterMap Client.Frame.event? := by
  rw [events, List.map_filterMap, List.filterMap_map]
  refine List.filterMap_congr fun frame _ => ?_
  simp [Function.comp_def]

end Service

/-! ## Refinement -/

open Service in
/-- **A socket is as good as a receiver.** Take a sound service and a handshake that opens a socket
on a channel, and a sound hub of the same capacity and a receiver that is attached to that channel
of it. Whatever other clients do, let the same be published, closed and pruned in both, in rounds
after each of which the socket's client finds all its frames and the receiver is read to the end.
Then

* the frames tell the client what the receiver yields, in the same rounds, up to the same end;
* the messages of the frames are the payloads that the receiver yields, and if no round has more of
  them than a receiver keeps, they are all payloads that are published before the close;
* a wait until a deadline over the frames ends as a ceremony does that listens on the hub itself;
* what is published is said by the requests: one that is posted to the path of publishes is answered
  with 200 just when it publishes what its body says, and for every channel and every payload there
  is a body that says them. -/
theorem socket_refinement {service opened : Service} (hs : service.Sound) {path channel : String}
    {number : Nat} (hpath : destination path = .ok channel)
    (hopen : service.connect path = .ok (number, opened)) {hub attached : Hub} (hhub : hub.Sound)
    (hcapacity : hub.capacity = service.hub.capacity) {id : ReceiverId}
    (hattach : hub.subscribe channel = .ok (id, attached))
    {rounds : List (Nat × List Happening)}
    (hrounds : ∀ round ∈ rounds, ∀ happening ∈ round.2, happening.Spares number)
    {schedule : List (Nat × List Hub.Operation)}
    (hschedule : ∀ round ∈ schedule, ∀ op ∈ round.2, op.Spares id)
    (hsame : schedule.map (fun round => (round.1, Hub.outsides round.2)) =
      rounds.map fun round => (round.1, outsides round.2)) :
    events (opened.frames number rounds) = attached.feed id schedule ∧
    Client.Frame.messages ((opened.frames number rounds).map (·.2.frame)) =
      (attached.feed id schedule).filterMap (·.2.payload?) ∧
    ((∀ round ∈ schedule, (Hub.aired channel round.2).length ≤ hub.capacity) →
      Client.Frame.messages ((opened.frames number rounds).map (·.2.frame)) =
        Hub.aired channel (schedule.flatMap Prod.snd)) ∧
    (∀ key : ChannelKey, key.name = channel → (rounds.map Prod.fst).Pairwise (· ≤ ·) →
      ∀ deadline,
        ((((Fleet.new hub).launch 0 ⟨key, key.purpose.action, .listen⟩).2.steps
            (.attach 0 :: ((rounds.filter (·.1 ≤ deadline)).map
              (fun round => .outside (outsides round.2)) ++ [.event 0 .deadline]))).run? 0).map
                Run.phase =
          some (.finished (.returned
            (Wait.run key deadline (events (opened.frames number rounds))).1))) ∧
    (∀ request : Request, request.method = "POST" → route request.path = some .publish →
      ((handle service.hub request).1.status = 200 ↔
        ∃ message, PublishRequest.ofTree (Tree.ofPrefix request.body) = .ok message ∧
          (Happening.request request).outside? =
            some (.publish message.channel message.payload))) ∧
    ∀ message : PublishRequest, ChannelName.Valid message.channel →
      message.toValue.render.utf8ByteSize ≤ maxBody →
      (Happening.request
          ⟨"POST", "/v1/publish", some "application/json", message.toValue.render⟩).outside? =
        some (.publish message.channel message.payload) := by
  obtain ⟨hserving, hopened⟩ := hs.serving hopen hpath
  obtain ⟨-, -, hattached, hreceiver⟩ := Hub.receiver?_subscribe hhub hattach
  have hnew : attached.HasNew channel id := ⟨hattached ▸ hhub.apply _, hreceiver⟩
  have hkept : attached.capacity = hub.capacity := hattached ▸ (hub.capacity_next_apply _).1
  have hfeed := hnew.feed_eq hschedule
  have hevents : events (opened.frames number rounds) = attached.feed id schedule := by
    rw [hserving.events_frames hrounds, hfeed, hopened, hkept, hcapacity]
    refine (Hub.heard_congr _ _ ?_).symm
    rw [hsame, List.map_map]
    exact List.map_congr_left fun round _ => by simp [Hub.outsides_operations]
  have hmessages : Client.Frame.messages ((opened.frames number rounds).map (·.2.frame)) =
      (attached.feed id schedule).filterMap (·.2.payload?) := by
    rw [Client.Frame.messages_eq, ← map_snd_events, hevents, hfeed, Hub.takeWhile_heard]
  refine ⟨hevents, hmessages, fun hfits => ?_, fun key hkey hsorted deadline => ?_,
    fun request hmethod hroute => ?_, fun message hvalid hsize => ?_⟩
  · rw [hmessages, hfeed]
    exact Hub.payloads_heard_of_length_le (hkept ▸ hfits)
  · subst hkey
    have hlisten := @Fleet.listen_outcome hub attached id hhub key hattach
      (rounds.map fun round => (round.1, outsides round.2)) (by rwa [List.map_map]) deadline
    have hinputs : ((rounds.map fun round => (round.1, outsides round.2)).filter
        (·.1 ≤ deadline)).map (fun round => Fleet.Input.outside round.2) =
          (rounds.filter (·.1 ≤ deadline)).map fun round => .outside (outsides round.2) := by
      rw [List.filter_map, List.map_map]
      rfl
    have hlistened : attached.feed id ((rounds.map fun round => (round.1, outsides round.2)).map
        fun round => (round.1, round.2.map Outside.operation)) =
          events (opened.frames number rounds) := by
      rw [hserving.events_frames hrounds, hopened, ← hcapacity, ← hkept, List.map_map]
      refine hnew.feed_eq fun round hround => ?_
      obtain ⟨round, -, rfl⟩ := List.mem_map.1 hround
      exact Fleet.spares_operations _ id
    rw [hinputs, hlistened] at hlisten
    exact hlisten
  · rw [status_publish_iff hmethod hroute]
    constructor
    · intro h
      obtain ⟨message, hmessage⟩ := Option.isSome_iff_exists.1 h
      exact ⟨message, (published?_eq_some_iff.1 hmessage).2.1, by
        rw [Happening.outside?, hmessage, Option.map_some]⟩
    · rintro ⟨message, -, ho⟩
      obtain ⟨found, hfound, -⟩ := Option.map_eq_some_iff.1 ho
      rw [hfound, Option.isSome_some]
  · rw [Happening.outside?, published?_render hvalid hsize, Option.map_some]

/-- A hub with one listener. -/
def oneListener : Hub where
  capacity := 64
  channels := [signingKey.name]
  receivers := [⟨0, signingKey.name, [], true⟩]
  next := 1

/-- A payload of a quotation mark, a line break and a letter that is not ASCII. -/
def oddPayload : Service.PublishRequest :=
  ⟨signingKey.name, "\"\né"⟩

open Service in
/-- The client of a socket is told an odd payload that is posted, and then the close. -/
theorem socket_refinement_of_oddPayload :
    events (Service.frames ⟨oneListener, [⟨0, 0, [], true⟩], 1⟩ 0
        [(1, [.request ⟨"POST", "/v1/publish", some "application/json",
            oddPayload.toValue.render⟩]), (3, [.sweep, .close signingKey.name])]) =
      [(1, .message oddPayload.payload), (3, .ended)] := by
  have hpath := destination_subscribePath signingKey
  have hopen : (Service.new .standard).connect (subscribePath signingKey.name) =
      .ok (0, ⟨oneListener, [⟨0, 0, [], true⟩], 1⟩) := by
    simp only [Service.connect, handshake, Service.new, hpath]
    rfl
  have hpublishes : (Happening.request ⟨"POST", "/v1/publish", some "application/json",
      oddPayload.toValue.render⟩).outside? =
        some (.publish signingKey.name oddPayload.payload) := by
    rw [Happening.outside?, published?_render signingKey.valid_name (by decide +kernel)]
    rfl
  let schedule : List (Nat × List Hub.Operation) :=
    [(1, [.publish signingKey.name oddPayload.payload]), (3, [.prune, .close signingKey.name])]
  have hschedule : ∀ round ∈ schedule, ∀ op ∈ round.2, op.Spares 0 := by
    simp [schedule, Hub.Operation.Spares]
  have hattach : Hub.standard.subscribe signingKey.name = .ok (0, oneListener) := rfl
  refine (socket_refinement (Service.sound_new (Hub.sound_new 64)) hpath hopen
    (Hub.sound_new 64) rfl hattach ?_ hschedule ?_).1.trans ?_
  · simp [Happening.Spares]
  · simp only [outsides, List.map_cons, List.map_nil, List.filterMap_cons, hpublishes]
    rfl
  · decide

end Custody
