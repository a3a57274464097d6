import Custody.Proofs.Service.Motion
import Custody.Proofs.Service.Stream
/-!
# Attachments

A request that does not publish, and is no handshake that opens a socket, leaves the service as it
is (`Service.serve`). A handshake that opens a socket attaches one receiver. It stays attached until
the socket is done (`Service.Exit`), is dropped then, and the client is sent nothing after that
(`hub_frame`).

* `Service.Attached.move_of_not_exit`, `Service.Attached.move_of_exit`: what a motion makes of an
  attached receiver.
* `Service.Detached.move`: what has been detached stays so.
* `Service.Attached.moves`: the two for a whole history.
-/

namespace Custody

namespace Service

/-! ## Requests with headers -/

/-- A request with its other headers. -/
structure Inbound where
  request : Request
  headers : List (String × String)
  deriving DecidableEq, Repr

/-- The answer to a handshake that has opened a socket. -/
def switching : Response :=
  .plain 101

/-- Answers any request. The rules of handshakes say by the headers of a `GET` request why it is no
handshake, and how that is answered. -/
def serve (objection? : List (String × String) → Option Response) (service : Service)
    (inbound : Inbound) : Response × Service :=
  if inbound.request.method = "GET" then
    match route inbound.request.path with
    | some (.subscribe _) =>
      match objection? inbound.headers with
      | some refusal => (refusal, service)
      | none =>
        match service.connect inbound.request.path with
        | .ok (_, service) => (switching, service)
        | .error refusal => (refusal, service)
    | _ => service.request inbound.request
  else
    service.request inbound.request

/-- The request is a publish. -/
def Inbound.IsPublish (inbound : Inbound) : Prop :=
  inbound.request.method = "POST" ∧ route inbound.request.path = some .publish

/-- The request is for a subscription to a segment. -/
def Inbound.Subscribes (inbound : Inbound) (segment : String) : Prop :=
  route inbound.request.path = some (.subscribe segment)

variable {service : Service} {inbound : Inbound} {segment : String}
  {objection? : List (String × String) → Option Response}

/-- A request that is no handshake changes nothing unless it publishes. -/
theorem request_eq_self {request : Request}
    (h : request.method = "POST" → route request.path = some .publish →
      (service.request request).1.status ≠ 200) : (service.request request).2 = service := by
  cases hp : request.published? with
  | none => simp only [Service.request, (handle_of_not_published hp service.hub).1]
  | some message =>
    obtain ⟨⟨hmethod, hroute, -⟩, -⟩ := published?_eq_some_iff.1 hp
    refine absurd ?_ (h hmethod hroute)
    simp only [Service.request, handle_of_published hp]

theorem status_publish_ne (hub : Hub) (request : Request) :
    (publish hub request).1.status ≠ 101 := by
  unfold publish
  split
  · simp [Response.plain]
  · split
    · simp [Response.plain]
    · split
      · next fault _ => cases fault <;> simp [Response.plain, faultStatus]
      · split <;> simp [Response.refused]

/-- The answer to a request that is no handshake does not switch protocols. -/
theorem status_handle_ne (hub : Hub) (request : Request) :
    (handle hub request).1.status ≠ 101 := by
  unfold handle
  split
  · simp [Response.plain]
  · split
    · simp [Response.plain]
    · split
      · simp
      · split <;> simp [Response.plain]
    · split
      · exact status_publish_ne hub request
      · simp [Response.plain]
    · split <;> simp [Response.plain]

theorem status_destination_ne {path : String} {refusal : Response}
    (h : destination path = .error refusal) : refusal.status ≠ 101 := by
  unfold destination at h
  (repeat' split at h) <;> cases h <;> simp [Response.plain, Response.refused]

/-- **A request changes nothing**, unless it publishes or opens a socket. -/
theorem serve_eq_self
    (hpublish : inbound.IsPublish → (service.serve objection? inbound).1.status ≠ 200)
    (hsubscribe : ∀ segment, inbound.Subscribes segment →
      (service.serve objection? inbound).1.status ≠ 101) :
    (service.serve objection? inbound).2 = service := by
  unfold serve at hpublish hsubscribe ⊢
  split
  · next hget =>
    rw [if_pos hget] at hpublish hsubscribe
    split
    · next segment hroute =>
      have hstatus := hsubscribe segment hroute
      rw [hroute] at hstatus
      split
      · rfl
      · next hno =>
        simp only [hno] at hstatus
        split
        · next opened hconnect =>
          rw [hconnect] at hstatus
          exact absurd rfl hstatus
        · rfl
    · next hroute =>
      refine request_eq_self fun hpost => ?_
      exact absurd (hget.symm.trans hpost) (by decide)
  · next hget =>
    rw [if_neg hget] at hpublish
    exact request_eq_self fun hmethod hroute => hpublish ⟨hmethod, hroute⟩

/-- A handshake that is refused does not switch protocols. -/
theorem status_connect_ne {path : String} {refusal : Response}
    (h : service.connect path = .error refusal) : refusal.status ≠ 101 := by
  unfold connect handshake at h
  cases hd : destination path with
  | error response =>
    rw [hd] at h
    cases h
    exact status_destination_ne hd
  | ok channel => simp [hd, Hub.subscribe, fault?_of_destination hd] at h

/-- **A request that opens a socket** is a handshake. -/
theorem connect_of_serve
    (hrules : ∀ headers refusal, objection? headers = some refusal → refusal.status ≠ 101)
    (h : (service.serve objection? inbound).1.status = 101) :
    ∃ number, service.connect inbound.request.path =
      .ok (number, (service.serve objection? inbound).2) := by
  unfold serve at h ⊢
  split
  · next hget =>
    rw [if_pos hget] at h
    split
    · next segment hroute =>
      rw [hroute] at h
      dsimp only at h
      split
      · next refusal hrefusal =>
        rw [hrefusal] at h
        exact absurd h (hrules _ _ hrefusal)
      · next hno =>
        rw [hno] at h
        dsimp only at h
        split
        · next number opened hconnect => exact ⟨number, hconnect⟩
        · next refusal hconnect =>
          rw [hconnect] at h
          exact absurd h (status_connect_ne hconnect)
    · next hroute =>
      simp only at h
      exact absurd h (status_handle_ne service.hub inbound.request)
  · next hget =>
    rw [if_neg hget] at h
    exact absurd h (status_handle_ne service.hub inbound.request)

/-- **What a handshake attaches**: one receiver, on the channel that the path stands for. -/
theorem connect_eq_ok {path : String} {number : Nat} {opened : Service}
    (h : service.connect path = .ok (number, opened)) :
    ∃ segment channel, route path = some (.subscribe segment) ∧
      Text.Percent.decode? segment = some channel ∧ destination path = .ok channel ∧
      number = service.next ∧ opened.hub = (service.hub.apply (.subscribe channel)).2 ∧
      opened.hub.receivers = service.hub.receivers ++ [⟨service.hub.next, channel, [], true⟩] := by
  unfold connect handshake at h
  cases hd : destination path with
  | error response => simp [hd] at h
  | ok channel =>
    have hvalid := fault?_of_destination hd
    simp only [hd, Hub.subscribe, hvalid, Except.ok.injEq, Prod.mk.injEq] at h
    obtain ⟨rfl, rfl⟩ := h
    have hpath := hd
    unfold destination at hpath
    split at hpath
    · next segment hroute =>
      split at hpath
      · cases hpath
      · next decoded hdecoded =>
        split at hpath
        · cases hpath
        · cases hpath
          exact ⟨segment, channel, hroute, hdecoded, rfl, rfl,
            by simp only [Hub.apply, Hub.subscribe, hvalid], rfl⟩
    · cases hpath
    · cases hpath
    · cases hpath

/-! ## Attached and detached -/

/-- An open socket forwards to its client what its receiver on a channel holds. -/
structure Attached (service : Service) (channel : String) (id : Nat) (receiver : Receiver) :
    Prop where
  sound : service.Sound
  socket : ∃ outbox, service.socket? id = some ⟨id, receiver.id, outbox, true⟩
  held : service.hub.receiver? receiver.id = some receiver
  channel_eq : receiver.channel = channel

/-- The receiver is gone for good, and its socket, if it is still there, is done. -/
structure Detached (service : Service) (id : Nat) (receiver : ReceiverId) : Prop where
  sound : service.Sound
  sockets : ∀ socket ∈ service.sockets, socket.id = id ∨ socket.receiver = receiver →
    socket.isOpen = false
  gone : service.hub.receiver? receiver = none
  id_lt : id < service.next
  receiver_lt : receiver < service.hub.next

/-- `Exit id receiver motion sent`: with this motion the socket is done whose receiver is this one,
and its client is sent these frames in it. -/
inductive Exit (id : Nat) (receiver : Receiver) : Motion → List Sent → Prop
  /-- The client's close frame, or a frame that breaks the rules. -/
  | closed {frame : Received} (h : frame.isLast = true) :
    Exit id receiver (.happening (.take id frame)) []
  /-- The end of the client's frames. -/
  | gone : Exit id receiver (.happening (.disconnect id)) []
  /-- A frame cannot be sent. -/
  | unreachable (h : receiver.read.1 ≠ .nothing) : Exit id receiver (.pump id false) []
  /-- The channel is closed, and the receiver is at its end. -/
  | ended (h : receiver.read.1 = .ended) : Exit id receiver (.pump id true) [.close]
  /-- The channel is closed, and the socket takes all that the receiver holds. -/
  | settled (h : receiver.isOpen = false) :
    Exit id receiver (.happening .settle) (receiver.pending.map .text ++ [.close])

/-- What a motion makes of an attached receiver. -/
inductive Fate (service : Service) (channel : String) (id : Nat) (receiver : Receiver)
    (motion : Motion) : Prop
  /-- Its socket is done, and it is dropped once. -/
  | detached {sent : List Sent} (exit : Exit id receiver motion sent)
    (after : (service.move motion).1.Detached id receiver.id)
    (once : (service.move motion).2.count (.drop receiver.id) = 1)
    (outbox : (service.move motion).1.outbox id <:+ service.outbox id ++ sent)
  /-- It stays attached, and is not dropped. -/
  | kept (next : Receiver) (stays : ∀ sent, ¬ Exit id receiver motion sent)
    (same : next.id = receiver.id) (after : (service.move motion).1.Attached channel id next)
    (spared : .drop receiver.id ∉ (service.move motion).2)

variable {channel : String} {id : Nat} {receiver : Receiver} {motion : Motion}

/-! ### After the detachment -/

/-- **What has been detached stays so**: it is not dropped again, and the client is sent nothing. -/
theorem Detached.move {receiver : ReceiverId} (h : service.Detached id receiver)
    (motion : Motion) :
    (service.move motion).1.Detached id receiver ∧ .drop receiver ∉ (service.move motion).2 ∧
      (service.move motion).1.outbox id <:+ service.outbox id := by
  have hhub := move_hub h.sound.hub motion
  have hs := h.sound.move motion
  refine ⟨⟨hs, fun socket hsocket hown => ?_, ?_, ?_, ?_⟩, fun hdrop => ?_, ?_⟩
  · rcases origin hsocket with hnew | ⟨old, hold, hkey, hfades⟩
    · -- a new socket has other numbers
      obtain ⟨hid, hreceiver⟩ := Prod.mk.inj hnew
      rcases hown with rfl | rfl
      · exact absurd h.id_lt (by rw [hid]; exact Nat.lt_irrefl _)
      · exact absurd h.receiver_lt (by rw [hreceiver]; exact Nat.lt_irrefl _)
    · obtain ⟨hid, hreceiver⟩ := Prod.mk.inj hkey
      exact (hfades (h.sockets old hold (by rwa [← hid, ← hreceiver]))).1
  · rw [hhub, Hub.receiver?_run_of_none h.sound.hub h.gone h.receiver_lt]
  · exact Nat.lt_of_lt_of_le h.id_lt (service.next_move motion)
  · rw [hhub]
    exact Nat.lt_of_lt_of_le h.receiver_lt (le_next_run service.hub _)
  · obtain ⟨socket, hsocket, ho, hreceiver⟩ := drop_mem_move hdrop
    rw [h.sockets socket hsocket (.inr hreceiver)] at ho
    cases ho
  · -- the frames on their way are those of the socket before
    cases hsocket : (service.move motion).1.socket? id with
    | none => simp [Service.outbox, hsocket]
    | some socket =>
      rcases origin (mem_of_socket? hsocket) with hnew | ⟨old, hold, hkey, hfades⟩
      · have hnumber := (Prod.mk.inj hnew).1
        rw [id_of_socket? hsocket] at hnumber
        have := h.id_lt
        omega
      · have holdid : old.id = id := (Prod.mk.inj hkey).1.symm.trans (id_of_socket? hsocket)
        have hclosed := h.sockets old hold (.inl holdid)
        have hwas := h.sound.socket?_eq_some_iff.2 ⟨hold, holdid⟩
        simpa [Service.outbox, hsocket, hwas] using (hfades hclosed).2

/-- After further motions the client of a detached receiver has been sent nothing. -/
theorem Detached.moves {receiver : ReceiverId} (h : service.Detached id receiver)
    (motions : List Motion) :
    (service.moves motions).1.Detached id receiver ∧
      .drop receiver ∉ (service.moves motions).2 ∧
      (service.moves motions).1.outbox id <:+ service.outbox id := by
  induction motions generalizing service with
  | nil => exact ⟨h, List.not_mem_nil, List.suffix_rfl⟩
  | cons motion rest ih =>
    obtain ⟨hnext, hdrop, hsent⟩ := h.move motion
    obtain ⟨hlast, hdrops, hsent'⟩ := ih hnext
    refine ⟨hlast, fun hmem => ?_, hsent'.trans hsent⟩
    rcases List.mem_append.1 hmem with hmem | hmem
    · exact hdrop hmem
    · exact hdrops hmem

/-- A receiver is detached whose socket is done. -/
theorem Detached.of_socket {receiver : ReceiverId} (hs : service.Sound) {outbox : List Sent}
    (h : service.socket? id = some ⟨id, receiver, outbox, false⟩)
    (hgone : service.hub.receiver? receiver = none) : service.Detached id receiver := by
  have hmem := mem_of_socket? h
  obtain ⟨hid, hreceiver⟩ := hs.lt _ (List.mem_map_of_mem hmem)
  refine ⟨hs, fun socket hsocket hown => ?_, hgone, hid, hreceiver⟩
  rcases hown with hown | hown
  · rw [hs.eq_of_id hsocket hmem hown]
  · rw [hs.eq_of_receiver hsocket hmem hown]

/-! ### Before the detachment -/

theorem outbox_of_socket? {socket : Socket} (h : service.socket? id = some socket) :
    service.outbox id = socket.outbox := by
  simp only [Service.outbox, h, Option.elim_some]

/-- The socket that is put in its own place is there. -/
theorem socket?_put {next socket : Socket} (h : service.socket? id = some socket)
    (hid : next.id = id) : (service.put next).socket? id = some next := by
  simp only [socket?, put] at h ⊢
  generalize service.sockets = sockets at h ⊢
  induction sockets with
  | nil => cases h
  | cons first rest ih =>
    rw [List.map_cons, List.find?_cons]
    by_cases hf : first.id = id
    · simp [hf, hid]
    · rw [List.find?_cons, beq_false_of_ne hf] at h
      rw [if_neg (hid ▸ hf), beq_false_of_ne hf]
      exact ih h

/-- What is about others leaves a receiver attached. -/
theorem Attached.of_spares (h : service.Attached channel id receiver)
    (hstays : ∀ sent, ¬ Exit id receiver motion sent) {outbox : List Sent}
    (hsocket : (service.move motion).1.socket? id = some ⟨id, receiver.id, outbox, true⟩)
    (hops : ∀ op ∈ (service.move motion).2, op.Spares receiver.id) :
    service.Fate channel id receiver motion := by
  obtain ⟨next, hnext, hid, hchannel⟩ := Hub.receiver?_run_of_spares h.sound.hub h.held hops
  refine .kept next hstays hid ⟨h.sound.move motion, ⟨outbox, hid ▸ hsocket⟩, ?_,
    hchannel.trans h.channel_eq⟩ fun hdrop => (hops _ hdrop).2 rfl
  rw [move_hub h.sound.hub, hid, hnext]

/-- A motion with which the socket is done detaches the receiver. -/
theorem Attached.of_exit (h : service.Attached channel id receiver) {sent outbox : List Sent}
    (hexit : Exit id receiver motion sent)
    (hsocket : (service.move motion).1.socket? id = some ⟨id, receiver.id, outbox, false⟩)
    (hheld : (service.move motion).1.hub.receiver? receiver.id = none)
    (hcount : (service.move motion).2.count (.drop receiver.id) = 1)
    (hout : outbox = service.outbox id ++ sent) : service.Fate channel id receiver motion := by
  refine .detached hexit (.of_socket (h.sound.move motion) hsocket hheld) hcount ?_
  rw [outbox_of_socket? hsocket, hout]

/-- **A socket that takes one thing** has what its receiver yields, and drops it when it is done. -/
theorem Attached.pump_eq (h : service.Attached channel id receiver) (sends : Bool) {socket : Socket}
    (hsocket : service.socket? id = some socket) (ho : socket.isOpen = true)
    (hr : socket.receiver = receiver.id) :
    (service.pump id sends).socket? id = some (socket.after sends receiver.read.1) ∧
      (service.pump id sends).hub.receiver? receiver.id =
        (if (socket.after sends receiver.read.1).isOpen then some receiver.read.2 else none) ∧
      service.pumping id sends = .receive receiver.id ::
        if (socket.after sends receiver.read.1).isOpen then [] else [.drop receiver.id] := by
  have hreceive := Hub.receive_eq h.held
  have hid : (socket.after sends receiver.read.1).id = id := by
    rw [Socket.after_eq, id_of_socket? hsocket]
  refine ⟨?_, ?_, ?_⟩
  · simp only [pump, hsocket, ho, if_true, hr, hreceive]
    exact socket?_put hsocket hid
  · simp only [pump, hsocket, ho, if_true, hr, hreceive]
    split
    · rw [Hub.receiver?_apply_of_receiver? h.sound.hub h.held, Receiver.after?, if_pos rfl]
    · have hlt := h.sound.hub.id_lt receiver (Hub.mem_of_receiver? h.held)
      exact receiver?_drop (h.sound.hub.apply _)
        (Nat.lt_of_lt_of_le hlt ((service.hub.capacity_next_apply _).2 ▸ Nat.le_add_right ..))
  · simp only [pumping, hsocket, ho, if_true, hr, hreceive]

/-- **What the pump of its own socket makes of a receiver.** -/
theorem Attached.move_pump (h : service.Attached channel id receiver) (sends : Bool) :
    service.Fate channel id receiver (.pump id sends) := by
  obtain ⟨outbox, hsocket⟩ := h.socket
  obtain ⟨hnext, hheld, hops⟩ := h.pump_eq sends hsocket rfl rfl
  have hout := outbox_of_socket? hsocket
  have hread {outbox : List Sent} (hstays : ∀ sent, ¬ Exit id receiver (.pump id sends) sent)
      (hnext : (service.pump id sends).socket? id = some ⟨id, receiver.id, outbox, true⟩)
      (hheld : (service.pump id sends).hub.receiver? receiver.id = some receiver.read.2)
      (hops : .drop receiver.id ∉ service.pumping id sends) :
      service.Fate channel id receiver (.pump id sends) := by
    refine .kept _ hstays receiver.read_id ⟨h.sound.pump id sends, ⟨outbox, ?_⟩, ?_, ?_⟩ hops
    · rw [receiver.read_id]
      exact hnext
    · rw [receiver.read_id]
      exact hheld
    · rw [receiver.read_channel, h.channel_eq]
  cases hreading : receiver.read.1 with
  | nothing =>
    simp only [hreading, Socket.after, if_true] at hnext hheld hops
    refine hread ?_ hnext hheld (by simp [hops])
    rintro sent (_ | _ | hother | hother)
    · exact hother hreading
    · rw [hreading] at hother
      cases hother
  | payload payload =>
    cases sends with
    | true =>
      simp only [hreading, Socket.after, if_true] at hnext hheld hops
      refine hread ?_ hnext hheld (by simp [hops])
      rintro sent (_ | _ | _ | hother)
      rw [hreading] at hother
      cases hother
    | false =>
      simp only [hreading, Socket.after, Bool.false_eq_true, if_false] at hnext hheld hops
      exact h.of_exit (.unreachable (by simp [hreading])) hnext hheld (by simp [move, hops])
        (by rw [hout, List.append_nil])
  | ended =>
    simp only [hreading, Socket.after, Bool.false_eq_true, if_false] at hnext hheld hops
    cases sends with
    | true =>
      exact h.of_exit (.ended hreading) hnext hheld (by simp [move, hops]) (by rw [hout]; rfl)
    | false =>
      exact h.of_exit (.unreachable (by simp [hreading])) hnext hheld (by simp [move, hops])
        (by rw [hout]; rfl)

/-- Of all sockets that forward, only one has a receiver, and drops it if the channel is closed. -/
theorem count_forwardings {hub : Hub} (hs : hub.Sound) {sockets : List Socket} {socket : Socket}
    (hlt : ∀ other ∈ sockets, other.receiver < hub.next)
    (hapart : sockets.Pairwise fun other later => other.receiver ≠ later.receiver)
    (hmem : socket ∈ sockets) (ho : socket.isOpen = true)
    (hr : hub.receiver? socket.receiver = some receiver) :
    (forwardings hub sockets).count (.drop socket.receiver) = if receiver.isOpen then 0 else 1 := by
  have hothers {hub : Hub} {others : List Socket}
      (hne : ∀ other ∈ others, other.receiver ≠ socket.receiver) :
      (forwardings hub others).count (.drop socket.receiver) = 0 := by
    refine List.count_eq_zero.2 fun hdrop => ?_
    obtain ⟨other, hother, -, hop | hop⟩ := mem_forwardings hdrop
    · cases hop
    · exact hne other hother (Hub.Operation.drop.inj hop).symm
  induction sockets generalizing hub with
  | nil => cases hmem
  | cons first rest ih =>
    obtain ⟨hfirst, hrest⟩ := List.forall_mem_cons.1 hlt
    obtain ⟨hother, hapart⟩ := List.pairwise_cons.1 hapart
    rw [forwardings, List.count_append]
    rcases List.mem_cons.1 hmem with rfl | hmem
    · rw [hothers fun other hmem => (hother other hmem).symm]
      simp only [forwarding, ho, if_true, Hub.drain_eq hs hr]
      cases receiver.isOpen <;> simp [List.count_append, List.count_replicate]
    · have hnext := forward_hub hs first
      have hne := hother socket hmem
      have hzero : (forwarding hub first).count (.drop socket.receiver) = 0 := by
        refine List.count_eq_zero.2 fun hdrop => ?_
        rcases mem_forwarding hdrop with hop | hop
        · cases hop
        · exact hne (Hub.Operation.drop.inj hop).symm
      rw [hzero, Nat.zero_add]
      refine ih (hnext ▸ Hub.sound_run hs _) (fun other hmem => ?_) hapart hmem ?_
      · exact Nat.lt_of_lt_of_le (hrest other hmem) (hnext ▸ le_next_run hub _)
      · rw [receiver?_forward hs (hrest socket hmem) hne, hr]

/-- **What becomes of a receiver when all sockets forward.** -/
theorem Attached.move_settle (h : service.Attached channel id receiver) :
    service.Fate channel id receiver (.happening .settle) := by
  obtain ⟨outbox, hsocket⟩ := h.socket
  obtain ⟨hsettled, hheld⟩ := h.sound.socket?_settle hsocket
  have hcount := count_forwardings h.sound.hub
    (fun other hother => (h.sound.lt _ (List.mem_map_of_mem hother)).2)
    ((List.pairwise_map.1 h.sound.apart).imp And.right) (mem_of_socket? hsocket) rfl h.held
  rw [h.held] at hsettled hheld
  cases ho : receiver.isOpen with
  | true =>
    simp only [Socket.forwarded, ho, if_true] at hsettled hheld hcount
    have hafter : service.settle.Attached channel id ⟨receiver.id, receiver.channel, [], true⟩ :=
      ⟨h.sound.apply .settle, ⟨_, hsettled⟩, hheld, h.channel_eq⟩
    refine .kept ⟨receiver.id, receiver.channel, [], true⟩ ?_ rfl hafter
      (List.count_eq_zero.1 hcount)
    rintro sent (_ | _ | _ | _ | hclosed)
    rw [ho] at hclosed
    cases hclosed
  | false =>
    simp only [Socket.forwarded, ho, if_true, Bool.false_eq_true, if_false] at hsettled hheld hcount
    refine h.of_exit (.settled ho) hsettled hheld hcount ?_
    rw [outbox_of_socket? hsocket, List.append_assoc]

/-- A client that leaves takes its receiver along. -/
theorem Attached.detach (h : service.Attached channel id receiver) {socket : Socket}
    (hsocket : service.socket? id = some socket) (ho : socket.isOpen = true)
    (hr : socket.receiver = receiver.id) :
    (service.detach socket).socket? id = some ⟨id, receiver.id, socket.outbox, false⟩ ∧
      (service.detach socket).hub.receiver? receiver.id = none ∧
      leaving service id = [.drop receiver.id] := by
  obtain rfl := id_of_socket? hsocket
  have hlt := h.sound.hub.id_lt receiver (Hub.mem_of_receiver? h.held)
  refine ⟨?_, ?_, ?_⟩
  · simp only [Service.detach, ho, if_true, hr]
    exact socket?_put hsocket rfl
  · simp only [Service.detach, ho, if_true, hr]
    exact receiver?_drop h.sound.hub hlt
  · simp only [leaving, hsocket, ho, if_true, hr]

/-- **What a client's frame makes of its receiver.** -/
theorem Attached.move_take (h : service.Attached channel id receiver) (frame : Received) :
    service.Fate channel id receiver (.happening (.take id frame)) := by
  obtain ⟨outbox, hsocket⟩ := h.socket
  by_cases hlast : frame.isLast = true
  · obtain ⟨hnext, hheld, hops⟩ := h.detach hsocket rfl rfl
    have hmove : (service.move (.happening (.take id frame))).1 =
        service.detach ⟨id, receiver.id, outbox, true⟩ := by
      simp [move, apply, take, hsocket, hlast]
    have hmoveops : (service.move (.happening (.take id frame))).2 = [.drop receiver.id] :=
      (if_pos hlast).trans hops
    rw [← hmove] at hnext hheld
    exact h.of_exit (.closed hlast) hnext hheld (by simp [hmoveops])
      (by rw [outbox_of_socket? hsocket, List.append_nil])
  · -- a frame that is not the last changes at most what is on its way to the client
    have hops : (service.move (.happening (.take id frame))).2 = [] := if_neg hlast
    obtain ⟨next, hnext⟩ : ∃ outbox, (service.move (.happening (.take id frame))).1.socket? id =
        some ⟨id, receiver.id, outbox, true⟩ := by
      simp only [move, apply, take, hsocket, Bool.not_true, Bool.false_eq_true, if_false, hlast]
      split
      · exact ⟨_, socket?_put hsocket rfl⟩
      · exact ⟨outbox, hsocket⟩
    refine h.of_spares ?_ hnext (by simp [hops])
    rintro sent (hclosed | _)
    exact hlast hclosed

/-- A client that looks takes a frame that is on its way, and nothing else. -/
theorem Attached.move_look (h : service.Attached channel id receiver) :
    service.Fate channel id receiver (.happening (.look id)) := by
  obtain ⟨outbox, hsocket⟩ := h.socket
  have hops : (service.move (.happening (.look id))).2 = [] := rfl
  obtain ⟨next, hnext⟩ : ∃ outbox, (service.move (.happening (.look id))).1.socket? id =
      some ⟨id, receiver.id, outbox, true⟩ := by
    simp only [move, apply, look, hsocket]
    split
    · exact ⟨_, socket?_put hsocket rfl⟩
    · exact ⟨_, hsocket⟩
  exact h.of_spares (by rintro _ (_ | _)) hnext (by simp [hops])

/-- **What becomes of a receiver whose client goes away.** -/
theorem Attached.move_disconnect (h : service.Attached channel id receiver) :
    service.Fate channel id receiver (.happening (.disconnect id)) := by
  obtain ⟨outbox, hsocket⟩ := h.socket
  obtain ⟨-, hheld, hops⟩ := h.detach hsocket rfl rfl
  have hkey := h.sound.lt _ (List.mem_map_of_mem (mem_of_socket? hsocket))
  have hs := h.sound.move (.happening (.disconnect id))
  have hhub := move_hub h.sound.hub (.happening (.disconnect id))
  have hmove : (service.move (.happening (.disconnect id))).1 =
      { service.detach ⟨id, receiver.id, outbox, true⟩ with
        sockets := (service.detach ⟨id, receiver.id, outbox, true⟩).sockets.filter
          fun other => other.id ≠ id } := by
    simp only [move, apply, disconnect, hsocket]
  have hne : ∀ socket ∈ (service.move (.happening (.disconnect id))).1.sockets,
      socket.id ≠ id := by
    rw [hmove]
    exact fun socket hmem => by simpa using (List.mem_filter.1 hmem).2
  have hnone : (service.move (.happening (.disconnect id))).1.socket? id = none := by
    simpa [socket?] using hne
  refine .detached .gone ⟨hs, fun socket hmem hown => ?_, hmove ▸ hheld, ?_, ?_⟩ ?_ ?_
  · rcases hown with hown | hown
    · exact absurd hown (hne socket hmem)
    · -- the socket that had the receiver is gone
      rcases origin hmem with hnew | ⟨old, hold, holdkey, -⟩
      · exact absurd ((Prod.mk.inj hnew).2.symm.trans hown) (Nat.ne_of_gt hkey.2)
      · obtain ⟨hid, hreceiver⟩ := Prod.mk.inj holdkey
        have hsame := h.sound.eq_of_receiver hold (mem_of_socket? hsocket) (hreceiver ▸ hown)
        exact absurd (hid.trans (congrArg Socket.id hsame)) (hne socket hmem)
  · exact Nat.lt_of_lt_of_le hkey.1 (service.next_move _)
  · exact Nat.lt_of_lt_of_le hkey.2 (hhub ▸ le_next_run service.hub _)
  · show (leaving service id).count _ = 1
    rw [hops]
    simp
  · rw [Service.outbox, hnone]
    exact List.nil_suffix

theorem socket?_pump_of_ne {other : Nat} (h : other ≠ id) (sends : Bool) :
    (service.pump other sends).socket? id = service.socket? id := by
  cases ho : service.socket? other with
  | none => rw [pump_of_none ho]
  | some found =>
    cases hopen : found.isOpen with
    | false => rw [(pump_of_closed ho hopen).1]
    | true =>
      simp only [pump, ho, hopen, if_true]
      refine socket?_put_of_ne service ?_
      rw [Socket.after_eq, id_of_socket? ho]
      exact h

/-- The pump of another socket is about another receiver. -/
theorem Sound.spares_pumping (hs : service.Sound) {socket : Socket}
    (hsocket : service.socket? id = some socket) {other : Nat} (h : other ≠ id) (sends : Bool) :
    ∀ op ∈ service.pumping other sends, op.Spares socket.receiver := by
  intro op hop
  unfold pumping at hop
  split at hop
  · cases hop
  · next found hfound =>
    have hreceiver : found.receiver ≠ socket.receiver := fun heq => by
      have hsame := hs.eq_of_receiver (mem_of_socket? hfound) (mem_of_socket? hsocket) heq
      exact h ((id_of_socket? hfound).symm.trans (hsame ▸ id_of_socket? hsocket))
    split at hop
    · rcases List.mem_cons.1 hop with rfl | hop
      · simp [Hub.Operation.Spares, hreceiver]
      · split at hop
        · cases hop
        · obtain rfl := List.mem_singleton.1 hop
          exact Hub.Operation.spares_drop hreceiver
    · cases hop

/-- **What a motion makes of an attached receiver.** -/
theorem Attached.move (h : service.Attached channel id receiver) (motion : Motion) :
    service.Fate channel id receiver motion := by
  obtain ⟨outbox, hsocket⟩ := h.socket
  have hothers {happening : Happening} (hspares : happening.Spares id)
      (hstays : ∀ sent, ¬ Exit id receiver (.happening happening) sent) :
      service.Fate channel id receiver (.happening happening) :=
    h.of_spares hstays (socket?_apply hsocket hspares) (h.sound.spares hsocket hspares)
  cases motion with
  | pump other sends =>
    by_cases ho : other = id
    · subst ho
      exact h.move_pump sends
    · refine h.of_spares ?_ ((socket?_pump_of_ne ho sends).trans hsocket)
        (h.sound.spares_pumping hsocket ho sends)
      rintro sent (_ | _ | _ | _)
      all_goals exact ho rfl
  | happening happening =>
    cases happening with
    | look other =>
      by_cases ho : other = id
      · subst ho
        exact h.move_look
      · exact hothers ho nofun
    | take other frame =>
      by_cases ho : other = id
      · subst ho
        exact h.move_take frame
      · refine hothers ho ?_
        rintro sent (_ | _)
        exact ho rfl
    | disconnect other =>
      by_cases ho : other = id
      · subst ho
        exact h.move_disconnect
      · refine hothers ho ?_
        rintro sent (_ | _)
        exact ho rfl
    | settle => exact h.move_settle
    | request request => exact hothers trivial nofun
    | connect path => exact hothers trivial nofun
    | close name => exact hothers trivial nofun
    | sweep => exact hothers trivial nofun

/-! ### Histories -/

/-- After these motions the receiver is still attached, and with the next one its socket is done. -/
def Done (service : Service) (channel : String) (id : Nat) (receiver : ReceiverId)
    (before : List Motion) (motion : Motion) (sent : List Sent) : Prop :=
  ∃ current : Receiver, current.id = receiver ∧
    (service.moves before).1.Attached channel id current ∧ Exit id current motion sent

theorem Attached.unique {current : Receiver} (h : service.Attached channel id receiver)
    (h' : service.Attached channel id current) : current = receiver := by
  obtain ⟨outbox, hsocket⟩ := h.socket
  obtain ⟨outbox', hsocket'⟩ := h'.socket
  have hid : current.id = receiver.id :=
    congrArg Socket.receiver (Option.some.inj (hsocket'.symm.trans hsocket))
  exact Option.some.inj (h'.held.symm.trans (hid ▸ h.held))

/-- **The life of an attachment**: as long as its socket is not done, the receiver stays attached
and is not dropped; with the motion with which it is done, it is dropped, once, and its client is
sent nothing after that. -/
theorem Attached.moves (h : service.Attached channel id receiver) (motions : List Motion) :
    ((∀ before motion after sent, motions = before ++ motion :: after →
        ¬ service.Done channel id receiver.id before motion sent) ∧
      (∃ next, next.id = receiver.id ∧ (service.moves motions).1.Attached channel id next) ∧
      (service.moves motions).2.count (.drop receiver.id) = 0) ∨
    ∃ before motion after sent, motions = before ++ motion :: after ∧
      service.Done channel id receiver.id before motion sent ∧
      (service.moves motions).1.Detached id receiver.id ∧
      (service.moves motions).2.count (.drop receiver.id) = 1 ∧
      (service.moves motions).1.outbox id <:+ (service.moves before).1.outbox id ++ sent := by
  induction motions generalizing service receiver with
  | nil => exact .inl ⟨by simp, ⟨receiver, rfl, h⟩, rfl⟩
  | cons motion rest ih =>
    cases h.move motion with
    | detached hexit hafter honce hout =>
      obtain ⟨hlast, hdrop, hsent⟩ := hafter.moves rest
      refine .inr ⟨[], motion, rest, _, rfl, ⟨receiver, rfl, h, hexit⟩, hlast, ?_,
        hsent.trans hout⟩
      rw [moves_cons, List.count_append, honce, List.count_eq_zero.2 hdrop]
    | kept next hstays hid hafter hspared =>
      have hzero := List.count_eq_zero.2 hspared
      rcases ih hafter with ⟨hnot, ⟨last, hlastid, hlast⟩, hcount⟩ |
        ⟨before, exit, after, sent, rfl, hdone, hlast, hcount, hout⟩
      · refine .inl ⟨?_, ⟨last, hlastid.trans hid, hlast⟩, ?_⟩
        · rintro before exit after sent hsplit ⟨current, hcurrent, hattached, hexit⟩
          cases before with
          | nil =>
            obtain ⟨rfl, -⟩ := List.cons.inj hsplit
            exact hstays sent (h.unique hattached ▸ hexit)
          | cons first before =>
            obtain ⟨rfl, rfl⟩ := List.cons.inj hsplit
            exact hnot before exit after sent rfl
              ⟨current, hcurrent.trans hid.symm, hattached, hexit⟩
        · rw [moves_cons, List.count_append, hzero, ← hid, hcount]
      · refine .inr ⟨motion :: before, exit, after, sent, rfl, hid ▸ hdone, hid ▸ hlast, ?_, hout⟩
        rw [moves_cons, List.count_append, hzero, ← hid, hcount]

/-- **Taking one thing after the other is taking all**: with so many motions of its own, and one
more, a socket takes what it takes when all sockets forward. -/
theorem Attached.moves_pump (h : service.Attached channel id receiver) {outbox : List Sent}
    (hsocket : service.socket? id = some ⟨id, receiver.id, outbox, true⟩) :
    let taken := (service.moves
      (List.replicate (receiver.pending.length + 1) (.pump id true))).1
    taken.socket? id =
        some (Socket.forwarded ⟨id, receiver.id, outbox, true⟩ (some receiver)).1 ∧
      taken.hub.receiver? receiver.id =
        (Socket.forwarded ⟨id, receiver.id, outbox, true⟩ (some receiver)).2 := by
  obtain ⟨number, name, pending, isOpen⟩ := receiver
  induction pending generalizing service outbox with
  | nil =>
    obtain ⟨hnext, hheld, -⟩ := h.pump_eq true hsocket rfl rfl
    show (service.pump id true).socket? id = _ ∧ (service.pump id true).hub.receiver? number = _
    rw [hnext, hheld]
    cases isOpen <;> simp [Receiver.read, Socket.after, Socket.forwarded]
  | cons payload rest ih =>
    obtain ⟨hnext, hheld, -⟩ := h.pump_eq true hsocket rfl rfl
    have hattached : (service.pump id true).Attached channel id ⟨number, name, rest, isOpen⟩ :=
      ⟨h.sound.pump id true, ⟨_, hnext⟩, hheld, h.channel_eq⟩
    obtain ⟨hlast, hlastheld⟩ := ih hattached hnext
    refine ⟨hlast.trans ?_, hlastheld.trans ?_⟩
    all_goals cases isOpen <;> simp [Socket.forwarded]

end Service

/-! ## The frame of the service -/

open Service in
/-- **Nothing touches the hub by mistake.** For every service, every request and all rules of
handshakes that answer no refusal with 101: a request that is neither a publish answered with 200
nor a subscription answered with 101 leaves the service, and so its hub, exactly as it was. In a
sound service, an answer of 101 attaches one receiver, on the channel that the segment of the path
stands for, by one subscription. Whatever happens after that, piece by piece, the receiver stays
attached and is not dropped as long as its socket is not done. The socket may be done with the
client's close frame or a frame against the rules, with the end of its frames, with a frame that
cannot be sent, or with the close frame after the end of a closed channel; the receiver is then
dropped just once, stays gone, and the client is sent nothing after that motion. -/
theorem hub_frame {objection? : List (String × String) → Option Response}
    (hrules : ∀ headers refusal, objection? headers = some refusal → refusal.status ≠ 101)
    (service : Service) (inbound : Inbound) :
    ((inbound.IsPublish → (service.serve objection? inbound).1.status ≠ 200) →
      (∀ segment, inbound.Subscribes segment →
        (service.serve objection? inbound).1.status ≠ 101) →
      (service.serve objection? inbound).2 = service) ∧
    (service.Sound → (service.serve objection? inbound).1.status = 101 →
      ∃ segment channel, inbound.Subscribes segment ∧
        Text.Percent.decode? segment = some channel ∧
        (service.serve objection? inbound).2.hub =
          (service.hub.apply (.subscribe channel)).2 ∧
        (service.serve objection? inbound).2.hub.receivers =
          service.hub.receivers ++ [⟨service.hub.next, channel, [], true⟩] ∧
        ∀ motions : List Motion,
          let opened := (service.serve objection? inbound).2
          let last := opened.moves motions
          ((∀ before motion after sent, motions = before ++ motion :: after →
              ¬ opened.Done channel service.next service.hub.next before motion sent) ∧
            (∃ next, next.id = service.hub.next ∧ last.1.Attached channel service.next next) ∧
            last.2.count (.drop service.hub.next) = 0) ∨
          ∃ before motion after sent, motions = before ++ motion :: after ∧
            opened.Done channel service.next service.hub.next before motion sent ∧
            last.1.Detached service.next service.hub.next ∧
            last.2.count (.drop service.hub.next) = 1 ∧
            last.1.outbox service.next <:+
              (opened.moves before).1.outbox service.next ++ sent) := by
  refine ⟨serve_eq_self, fun hs hstatus => ?_⟩
  obtain ⟨number, hconnect⟩ := connect_of_serve hrules hstatus
  obtain ⟨segment, channel, hroute, hdecode, hpath, rfl, hhub, hreceivers⟩ := connect_eq_ok hconnect
  obtain ⟨hserving, -⟩ := hs.serving hconnect hpath
  have hattached : (service.serve objection? inbound).2.Attached channel service.next
      ⟨service.hub.next, channel, [], true⟩ :=
    ⟨hserving.sound, ⟨[], hserving.socket⟩, hserving.receiver, rfl⟩
  exact ⟨segment, channel, hroute, hdecode, hhub, hreceivers, hattached.moves⟩

namespace Service

/-- Rules of handshakes: the headers ask for a socket, in the version that is spoken. -/
def socketRules (headers : List (String × String)) : Option Response :=
  if ("connection", "upgrade") ∈ headers ∧ ("upgrade", "websocket") ∈ headers ∧
      ("sec-websocket-version", "13") ∈ headers ∧ "sec-websocket-key" ∈ headers.map Prod.fst then
    none
  else
    some (.plain 400)

/-- A request for a subscription to `keygen:s1`, with headers. -/
def wanted (headers : List (String × String)) : Inbound :=
  ⟨⟨"GET", "/v1/subscribe/keygen%3As1", none, ""⟩, headers⟩

/-- A handshake for it. -/
def wantedSocket : Inbound :=
  wanted [("connection", "upgrade"), ("upgrade", "websocket"), ("sec-websocket-version", "13"),
    ("sec-websocket-key", "dGhlIHNhbXBsZSBub25jZQ==")]

/-- The channel is closed and the socket takes what its receiver holds; then the client closes. -/
def closing : List Motion :=
  [.happening .sweep, .happening (.close "keygen:s1"), .pump 0 true, .happening (.take 0 .close)]

end Service

open Service in
theorem hub_frame_of_wantedSocket :
    ((Service.new .standard).serve socketRules (wanted [])).2 = Service.new .standard ∧
    ∃ channel, Text.Percent.decode? "keygen%3As1" = some channel ∧
      ∃ before motion after sent, closing = before ++ motion :: after ∧
        ((Service.new .standard).serve socketRules wantedSocket).2.Done channel 0 0 before motion
          sent := by
  have hrules : ∀ headers refusal, socketRules headers = some refusal → refusal.status ≠ 101 := by
    intro headers refusal h
    unfold socketRules at h
    split at h
    · cases h
    · cases h
      simp [Response.plain]
  obtain ⟨hsame, -⟩ := hub_frame hrules (Service.new .standard) (wanted [])
  obtain ⟨-, hopen⟩ := hub_frame hrules (Service.new .standard) wantedSocket
  have hroute : route "/v1/subscribe/keygen%3As1" = some (.subscribe "keygen%3As1") := by decide
  have hrefused : ((Service.new .standard).serve socketRules (wanted [])).1.status = 400 := by
    decide +kernel
  have hstatus : ((Service.new .standard).serve socketRules wantedSocket).1.status = 101 := by
    decide +kernel
  refine ⟨hsame (fun _ => by rw [hrefused]; decide) fun _ _ => by rw [hrefused]; decide, ?_⟩
  obtain ⟨segment, channel, hsegment, hdecode, -, -, hmotions⟩ :=
    hopen (sound_new (Hub.sound_new 64)) hstatus
  obtain rfl : "keygen%3As1" = segment :=
    Route.subscribe.inj (Option.some.inj (hroute.symm.trans hsegment))
  refine ⟨channel, hdecode, ?_⟩
  rcases hmotions closing with ⟨-, -, hzero⟩ | ⟨before, motion, after, sent, hsplit, hdone, -⟩
  · -- the receiver has been dropped
    have hone : (((Service.new .standard).serve socketRules wantedSocket).2.moves closing).2.count
        (.drop 0) = 1 := by decide +kernel
    exact absurd (hone.symm.trans hzero) (by decide)
  · exact ⟨before, motion, after, sent, hsplit, hdone⟩

end Custody
