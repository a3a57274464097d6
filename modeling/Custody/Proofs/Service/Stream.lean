import Custody.Client.SocketBroker
import Custody.Proofs.Service.Sockets
/-!
# The stream of a socket

A client that looks for frames as soon as its socket has forwarded (`Service.frames`) finds of each
round the payloads that were published on the channel in it, as text frames, and a close frame after
the last ones when the channel is closed (`Service.Serving.events_frames`). Whatever else happens to
the service in between is of no account.
-/

namespace Custody

/-! ## What others do -/

/-- What others do by an operation. -/
def Hub.Operation.outside? : Hub.Operation → Option Outside
  | publish channel payload => some (.publish channel payload)
  | close channel => some (.close channel)
  | prune => some .prune
  | subscribe _ | receive _ | drop _ => none

/-- What others do by operations. -/
def Hub.outsides (ops : List Hub.Operation) : List Outside :=
  ops.filterMap Hub.Operation.outside?

theorem Outside.outside?_operation (o : Outside) : o.operation.outside? = some o := by
  cases o <;> rfl

theorem Hub.Operation.operation_of_outside? {op : Hub.Operation} {o : Outside}
    (h : op.outside? = some o) : o.operation = op := by
  cases op <;> cases h <;> rfl

namespace Hub

variable {channel : String}

/-- What is aired is what others do. -/
theorem aired_outsides (channel : String) (ops : List Operation) :
    aired channel ((outsides ops).map Outside.operation) = aired channel ops := by
  induction ops with
  | nil => rfl
  | cons op rest ih =>
    simp only [outsides] at ih
    cases op <;>
      simp only [outsides, List.filterMap_cons, Operation.outside?, List.map_cons,
        Outside.operation, aired, ih]

theorem close_mem_outsides (ops : List Operation) :
    .close channel ∈ (outsides ops).map Outside.operation ↔ .close channel ∈ ops := by
  simp only [outsides, List.mem_map, List.mem_filterMap]
  constructor
  · rintro ⟨o, ⟨op, hop, ho⟩, hclose⟩
    rwa [← hclose, Operation.operation_of_outside? ho]
  · exact fun h => ⟨.close channel, ⟨_, h, rfl⟩, rfl⟩

/-- **What is heard is what others do.** -/
theorem heard_congr (capacity : Nat) (channel : String)
    {rounds others : List (Nat × List Operation)}
    (h : rounds.map (fun round => (round.1, outsides round.2)) =
      others.map fun round => (round.1, outsides round.2)) :
    heard capacity channel rounds = heard capacity channel others := by
  induction rounds generalizing others with
  | nil =>
    cases others with
    | nil => rfl
    | cons _ _ => cases h
  | cons round rest ih =>
    cases others with
    | nil => cases h
    | cons other more =>
      obtain ⟨time, ops⟩ := round
      obtain ⟨time', ops'⟩ := other
      obtain ⟨hround, hrest⟩ := List.cons.inj h
      obtain ⟨rfl, hops⟩ := Prod.mk.inj hround
      have haired : aired channel ops = aired channel ops' := by
        rw [← aired_outsides, ← aired_outsides channel ops', hops]
      have hclose : .close channel ∈ ops ↔ .close channel ∈ ops' := by
        rw [← close_mem_outsides, ← close_mem_outsides ops', hops]
      simp only [heard, haired, hclose, ih hrest]

end Hub

namespace Service

variable {service : Service} {id : Nat} {socket : Socket}

/-- What others do by what happens to a service. -/
def outsides (happenings : List Happening) : List Outside :=
  happenings.filterMap Happening.outside?

/-- What is done to the hub in a history. -/
def history (service : Service) : List Happening → List Hub.Operation
  | [] => []
  | happening :: rest =>
    service.operations happening ++ (service.apply happening).2.history rest

theorem record_hub (hs : service.Sound) (happenings : List Happening) :
    (service.record happenings).2.hub = (service.hub.run (service.history happenings)).2 := by
  induction happenings generalizing service with
  | nil => rfl
  | cons happening rest ih =>
    rw [history, Hub.run_append, ← apply_hub hs.hub, ← ih (hs.apply happening)]
    rfl

theorem outsides_leaving (service : Service) (id : Nat) :
    Hub.outsides (leaving service id) = [] := by
  unfold leaving
  split
  · rfl
  · split <;> rfl

theorem outsides_forwardings (hub : Hub) (sockets : List Socket) :
    Hub.outsides (forwardings hub sockets) = [] := by
  induction sockets generalizing hub with
  | nil => rfl
  | cons socket rest ih =>
    have hfirst : Hub.outsides (forwarding hub socket) = [] := by
      refine List.filterMap_eq_nil_iff.2 fun op hop => ?_
      rcases mem_forwarding hop with rfl | rfl <;> rfl
    rw [forwardings, Hub.outsides, List.filterMap_append, ← Hub.outsides, ← Hub.outsides, hfirst,
      ih, List.nil_append]

/-- Of what is done to the hub, this is what others do. -/
theorem outsides_operations (service : Service) (happening : Happening) :
    Hub.outsides (service.operations happening) = happening.outside?.toList := by
  cases happening with
  | connect path =>
    simp only [operations]
    split <;> rfl
  | take id frame =>
    simp only [operations]
    split
    · exact outsides_leaving service id
    · rfl
  | disconnect id => exact outsides_leaving service id
  | settle => exact outsides_forwardings ..
  | request request =>
    simp only [operations, Happening.outside?]
    cases request.published? <;> rfl
  | _ => rfl

theorem outsides_history (service : Service) (happenings : List Happening) :
    Hub.outsides (service.history happenings) = outsides happenings := by
  induction happenings generalizing service with
  | nil => rfl
  | cons happening rest ih =>
    have hfirst := outsides_operations service happening
    simp only [Hub.outsides, outsides] at hfirst ih ⊢
    rw [history, List.filterMap_append, hfirst, ih, List.filterMap_cons]
    cases happening.outside? <;> rfl

/-- **A history of others** leaves a socket as it is, and does nothing with its receiver. -/
theorem Sound.spares_history (hs : service.Sound) (hsocket : service.socket? id = some socket)
    {happenings : List Happening} (h : ∀ happening ∈ happenings, happening.Spares id) :
    (service.record happenings).2.socket? id = some socket ∧
      ∀ op ∈ service.history happenings, op.Spares socket.receiver := by
  induction happenings generalizing service with
  | nil => exact ⟨hsocket, nofun⟩
  | cons happening rest ih =>
    obtain ⟨hfirst, hrest⟩ := List.forall_mem_cons.1 h
    obtain ⟨hkept, hlater⟩ := ih (hs.apply happening) (socket?_apply hsocket hfirst) hrest
    refine ⟨hkept, fun op hop => ?_⟩
    rcases List.mem_append.1 hop with hop | hop
    · exact hs.spares hsocket hfirst op hop
    · exact hlater op hop

/-! ## Clients that look at once -/

/-- The frames that a client finds in so many looks, up to the first in which it finds none. -/
def lookAll (service : Service) (id : Nat) : Nat → List Sent × Service
  | 0 => ([], service)
  | n + 1 =>
    match service.look id with
    | (.frame frame, service) =>
      let (frames, service) := service.lookAll id n
      (frame :: frames, service)
    | (_, service) => ([], service)

/-- The frames that are on their way to a client. -/
def outbox (service : Service) (id : Nat) : List Sent :=
  (service.socket? id).elim [] Socket.outbox

/-- The frames that a client finds who looks for all that are on their way. -/
def collect (service : Service) (id : Nat) : List Sent × Service :=
  service.lookAll id (service.outbox id).length

/-- What a client finds who looks for frames after each round of what happens to the service, as
soon as the sockets have forwarded, with the times of the rounds. -/
def frames (service : Service) (id : Nat) : List (Nat × List Happening) → List (Nat × Sent)
  | [] => []
  | (time, happenings) :: rest =>
    let found := (service.record happenings).2.settle.collect id
    found.1.map (time, ·) ++ found.2.frames id rest

theorem look_of_outbox (hs : service.Sound) {frame : Sent} {rest : List Sent}
    {receiver : ReceiverId} {isOpen : Bool}
    (h : service.socket? id = some ⟨id, receiver, frame :: rest, isOpen⟩) :
    (service.look id).1 = .frame frame ∧ (service.look id).2.hub = service.hub ∧
      (service.look id).2.socket? id = some ⟨id, receiver, rest, isOpen⟩ := by
  have hlook : service.look id = (.frame frame, service.put ⟨id, receiver, rest, isOpen⟩) := by
    simp only [look, h]
  have hs' := hs.apply (.look id)
  have hmem : ⟨id, receiver, rest, isOpen⟩ ∈ (service.look id).2.sockets := by
    rw [hlook]
    exact List.mem_map.2 ⟨_, mem_of_socket? h, if_pos rfl⟩
  refine ⟨by rw [hlook], by rw [hlook]; rfl, ?_⟩
  exact hs'.socket?_eq_some_iff.2 ⟨hmem, rfl⟩

/-- **A client finds all frames that are on their way**, and nothing else changes. -/
theorem lookAll_of_outbox (hs : service.Sound) {outbox : List Sent} {receiver : ReceiverId}
    {isOpen : Bool} (h : service.socket? id = some ⟨id, receiver, outbox, isOpen⟩) :
    (service.lookAll id outbox.length).1 = outbox ∧
      (service.lookAll id outbox.length).2.Sound ∧
      (service.lookAll id outbox.length).2.hub = service.hub ∧
      (service.lookAll id outbox.length).2.socket? id = some ⟨id, receiver, [], isOpen⟩ := by
  induction outbox generalizing service with
  | nil => exact ⟨rfl, hs, rfl, h⟩
  | cons frame rest ih =>
    obtain ⟨hfound, hhub, hsocket⟩ := look_of_outbox hs h
    obtain ⟨hframes, hsound, hhub', hsocket'⟩ := ih (hs.apply (.look id)) hsocket
    have hall : service.lookAll id (frame :: rest).length =
        (frame :: ((service.look id).2.lookAll id rest.length).1,
          ((service.look id).2.lookAll id rest.length).2) := by
      rw [List.length_cons, lookAll, ← Prod.mk.eta (p := service.look id), hfound]
    rw [hall]
    exact ⟨congrArg _ hframes, hsound, hhub'.trans hhub, hsocket'⟩

/-! ## What a client is told -/

/-- A frame as its client receives it. -/
def Sent.frame : Sent → Client.Frame
  | text payload => .text payload
  | pong => .pong
  | close => .close

/-- What frames are to one who waits, with their times. -/
def events (frames : List (Nat × Sent)) : List (Nat × StreamEvent) :=
  frames.filterMap fun (time, sent) => sent.frame.event?.map (time, ·)

theorem events_append (first second : List (Nat × Sent)) :
    events (first ++ second) = events first ++ events second :=
  List.filterMap_append ..

theorem events_texts (time : Nat) (payloads : List String) :
    events ((payloads.map Sent.text).map (time, ·)) =
      payloads.map fun payload => (time, .message payload) := by
  rw [events, List.map_map, List.filterMap_map]
  show payloads.filterMap (some ∘ fun payload => (time, StreamEvent.message payload)) = _
  rw [List.filterMap_eq_map]

variable {channel : String} {receiver : ReceiverId}

/-- A socket forwards what is published on a channel, and its client has found all frames so far. -/
structure Serving (service : Service) (channel : String) (id : Nat) (receiver : ReceiverId) :
    Prop where
  sound : service.Sound
  socket : service.socket? id = some ⟨id, receiver, [], true⟩
  receiver : service.hub.receiver? receiver = some ⟨receiver, channel, [], true⟩

/-- A socket has forwarded all, and its client has found all frames. -/
structure Served (service : Service) (id : Nat) (receiver : ReceiverId) : Prop where
  sound : service.Sound
  socket : service.socket? id = some ⟨id, receiver, [], false⟩

/-- A client that looks for all frames on their way, in a service where its socket has just
forwarded. -/
theorem collect_eq (hs : service.Sound) {outbox : List Sent} {isOpen : Bool}
    (h : service.socket? id = some ⟨id, receiver, outbox, isOpen⟩) :
    (service.collect id).1 = outbox ∧ (service.collect id).2.Sound ∧
      (service.collect id).2.hub = service.hub ∧
      (service.collect id).2.socket? id = some ⟨id, receiver, [], isOpen⟩ := by
  have hout : service.outbox id = outbox := by simp [Service.outbox, h]
  rw [collect, hout]
  exact lookAll_of_outbox hs h

/-- The client of a socket that has forwarded all finds no more frames. -/
theorem Served.frames_eq (h : service.Served id receiver) {rounds : List (Nat × List Happening)}
    (hr : ∀ round ∈ rounds, ∀ happening ∈ round.2, happening.Spares id) :
    service.frames id rounds = [] := by
  induction rounds generalizing service with
  | nil => rfl
  | cons round rest ih =>
    obtain ⟨hround, hrest⟩ := List.forall_mem_cons.1 hr
    obtain ⟨hsocket, -⟩ := h.sound.spares_history h.socket hround
    have hs := h.sound.record round.2
    have hs' : (service.record round.2).2.settle.Sound := hs.apply .settle
    obtain ⟨hframes, hsound, -, hsocket'⟩ := collect_eq hs' (hs.socket?_settle hsocket).1
    rw [frames, hframes, ih ⟨hsound, hsocket'⟩ hrest]
    rfl

/-- The capacity of a hub stays. -/
theorem capacity_record (hs : service.Sound) (happenings : List Happening) :
    (service.record happenings).2.hub.capacity = service.hub.capacity := by
  rw [record_hub hs, Hub.capacity_run]

/-- **What the client of a socket is told** of rounds in which only others do something. -/
theorem Serving.events_frames (h : service.Serving channel id receiver)
    {rounds : List (Nat × List Happening)}
    (hr : ∀ round ∈ rounds, ∀ happening ∈ round.2, happening.Spares id) :
    events (service.frames id rounds) = Hub.heard service.hub.capacity channel
      (rounds.map fun round => (round.1, (outsides round.2).map Outside.operation)) := by
  induction rounds generalizing service with
  | nil => rfl
  | cons round rest ih =>
    obtain ⟨time, happenings⟩ := round
    obtain ⟨hround, hrest⟩ := List.forall_mem_cons.1 hr
    obtain ⟨hsocket, hspares⟩ := h.sound.spares_history h.socket hround
    have hs := h.sound.record happenings
    have hreceiver := Hub.HasNew.receiver?_of_spares ⟨h.sound.hub, h.receiver⟩ hspares
    rw [← record_hub h.sound, ← Hub.aired_outsides, outsides_history] at hreceiver
    simp only [← Hub.close_mem_outsides (service.history happenings), outsides_history] at hreceiver
    obtain ⟨hsettled, hreceiver'⟩ := hs.socket?_settle hsocket
    have hs' : (service.record happenings).2.settle.Sound := hs.apply .settle
    rw [hreceiver] at hsettled hreceiver'
    by_cases hc : .close channel ∈ (outsides happenings).map Outside.operation
    · -- the close frame is the last
      simp only [hc, not_true_eq_false, decide_false, Socket.forwarded, if_true, List.nil_append,
        Bool.false_eq_true, if_false] at hsettled
      obtain ⟨hframes, hsound, -, hsocket'⟩ := collect_eq hs' hsettled
      have hlater := Served.frames_eq ⟨hsound, hsocket'⟩ hrest
      simp only [frames, hframes, hlater, List.map_cons, Hub.heard, hc, if_true, List.map_append,
        events_append, events_texts]
      exact List.append_nil _
    · simp only [hc, not_false_eq_true, decide_true, Socket.forwarded, if_true, List.nil_append]
        at hsettled hreceiver'
      obtain ⟨hframes, hsound, hhub, hsocket'⟩ := collect_eq hs' hsettled
      have hcapacity : ((service.record happenings).2.settle.collect id).2.hub.capacity =
          service.hub.capacity := by
        rw [hhub]
        exact (capacity_record hs [.settle]).trans (capacity_record h.sound happenings)
      have hlater := ih ⟨hsound, hsocket', hhub ▸ hreceiver'⟩ hrest
      simp only [frames, hframes, List.map_cons, Hub.heard, hc, if_false, events_append,
        events_texts, hlater, hcapacity]

/-! ## Handshakes -/

/-- **A handshake opens a socket that forwards.** -/
theorem Sound.serving (hs : service.Sound) {path : String} {opened : Service}
    (h : service.connect path = .ok (id, opened)) {channel : String}
    (hpath : destination path = .ok channel) :
    opened.Serving channel id service.hub.next ∧ opened.hub.capacity = service.hub.capacity := by
  have hopened : opened = (service.apply (.connect path)).2 := by
    simp only [Service.apply, h]
  have hsound : opened.Sound := hopened ▸ hs.apply _
  obtain ⟨hub, hsub⟩ := service.hub.exists_subscribe
    (ChannelName.fault?_eq_none_iff.1 (fault?_of_destination hpath))
  obtain ⟨-, -, -, hreceiver⟩ := Hub.receiver?_subscribe hs.hub hsub
  simp only [connect, handshake, hpath, hsub, Except.ok.injEq, Prod.mk.injEq] at h
  obtain ⟨rfl, rfl⟩ := h
  have hcapacity : hub.capacity = service.hub.capacity := by
    have := (service.hub.capacity_next_apply (.subscribe channel)).1
    simpa only [Hub.apply, hsub] using this
  exact ⟨⟨hsound, hsound.socket?_eq_some_iff.2 ⟨by simp, rfl⟩, hreceiver⟩, hcapacity⟩

end Service

end Custody
