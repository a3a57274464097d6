import Custody.Proofs.Hub.Bookkeeping
import Custody.Proofs.Service.Sockets
/-!
# A service piece by piece

A socket takes what its receiver holds one thing after the other, and between any two of them
something else may happen (`Service.Motion`): its client sends a frame or goes away, the channel is
closed, or the client turns out to be out of reach when a frame is sent. What is done to the hub
(`Service.move_hub`), and what becomes of the sockets (`Service.Sound.origin`), is told for each
motion.

* `Service.Sound.moves`: motions keep a service sound.
* `Service.drop_mem_move`: a receiver is dropped by a motion only if an open socket has it.
-/

namespace Custody

/-- A receiver that has been dropped does not come back. -/
theorem Hub.receiver?_run_of_none {hub : Hub} (hs : hub.Sound) {id : ReceiverId}
    (h : hub.receiver? id = none) (hid : id < hub.next) (ops : List Operation) :
    (hub.run ops).2.receiver? id = none := by
  induction ops generalizing hub with
  | nil => exact h
  | cons op rest ih =>
    have hnone : (hub.apply op).2.receiver? id = none := by rw [receiver?_apply hs op hid, h]; rfl
    have hlt : id < (hub.apply op).2.next :=
      Nat.lt_of_lt_of_le hid ((hub.capacity_next_apply op).2 ▸ Nat.le_add_right ..)
    exact ih (hs.apply op) hnone hlt

/-- A receiver that nobody reads with or drops keeps its number and its channel. -/
theorem Hub.receiver?_run_of_spares {hub : Hub} (hs : hub.Sound) {r : Receiver}
    (h : hub.receiver? r.id = some r) {ops : List Operation} (hops : ∀ op ∈ ops, op.Spares r.id) :
    ∃ next, (hub.run ops).2.receiver? r.id = some next ∧ next.id = r.id ∧
      next.channel = r.channel := by
  induction ops generalizing hub r with
  | nil => exact ⟨r, h, rfl, rfl⟩
  | cons op rest ih =>
    obtain ⟨hop, hrest⟩ := List.forall_mem_cons.1 hops
    have hnext := receiver?_apply_of_receiver? hs h op
    cases hafter : r.after? hub.capacity op with
    | none =>
      have hdrop : (r.after? hub.capacity op).isSome := Receiver.isSome_after?_iff.2 hop.2
      rw [hafter] at hdrop
      cases hdrop
    | some next =>
      have hid := Receiver.after?_id hafter
      rw [hafter, ← hid] at hnext
      obtain ⟨last, hlast, hlastid, hchannel⟩ := ih (hs.apply op) hnext (hid ▸ hrest)
      exact ⟨last, hid ▸ hlast, hlastid.trans hid, hchannel.trans (Receiver.after?_channel hafter)⟩

namespace Service

/-! ## Motions -/

/-- A socket after it has found something at its receiver and tried to send it. It is done at the
end of the receiver, and when the frame cannot be sent. -/
def Socket.after (socket : Socket) (sends : Bool) : Reading → Socket
  | .nothing => socket
  | .payload payload =>
    if sends then { socket with outbox := socket.outbox ++ [.text payload] }
    else { socket with isOpen := false }
  | .ended =>
    { socket with
      outbox := socket.outbox ++ if sends then [.close] else []
      isOpen := false }

/-- One socket takes one thing from its receiver; a socket that is done drops the receiver. -/
def pump (service : Service) (id : Nat) (sends : Bool) : Service :=
  match service.socket? id with
  | none => service
  | some socket =>
    if socket.isOpen then
      let (reading, hub) := service.hub.receive socket.receiver
      let next := socket.after sends reading
      { service.put next with hub := if next.isOpen then hub else (hub.drop socket.receiver).2 }
    else
      service

/-- What is done to the hub by that. -/
def pumping (service : Service) (id : Nat) (sends : Bool) : List Hub.Operation :=
  match service.socket? id with
  | none => []
  | some socket =>
    if socket.isOpen then
      .receive socket.receiver ::
        if (socket.after sends (service.hub.receive socket.receiver).1).isOpen then []
        else [.drop socket.receiver]
    else
      []

/-- What can happen to a service whose sockets take one thing at a time. -/
inductive Motion
  | happening (happening : Happening)
  /-- A socket takes one thing, and its client can be reached or not. -/
  | pump (id : Nat) (sends : Bool)
  deriving DecidableEq, Repr

/-- The service after a motion, and what has been done to its hub. -/
def move (service : Service) : Motion → Service × List Hub.Operation
  | .happening happening => ((service.apply happening).2, service.operations happening)
  | .pump id sends => (service.pump id sends, service.pumping id sends)

/-- The service after motions, and what has been done to its hub. -/
def moves (service : Service) : List Motion → Service × List Hub.Operation
  | [] => (service, [])
  | motion :: rest =>
    let (service, ops) := service.move motion
    let (service, more) := service.moves rest
    (service, ops ++ more)

variable {service : Service} {socket : Socket} {id : Nat} {sends : Bool}

theorem moves_cons (service : Service) (motion : Motion) (rest : List Motion) :
    service.moves (motion :: rest) =
      (((service.move motion).1.moves rest).1,
        (service.move motion).2 ++ ((service.move motion).1.moves rest).2) :=
  rfl

/-! ## Soundness -/

theorem Socket.after_eq (socket : Socket) (sends : Bool) (reading : Reading) :
    socket.after sends reading = { socket with
      outbox := (socket.after sends reading).outbox
      isOpen := (socket.after sends reading).isOpen } := by
  unfold after
  split
  · rfl
  · split <;> rfl
  · rfl

theorem pump_of_none (h : service.socket? id = none) : service.pump id sends = service := by
  simp only [pump, h]

theorem pump_of_closed (h : service.socket? id = some socket) (ho : socket.isOpen = false) :
    service.pump id sends = service ∧ service.pumping id sends = [] := by
  simp [pump, pumping, h, ho]

theorem pump_hub (service : Service) (id : Nat) (sends : Bool) :
    (service.pump id sends).hub = (service.hub.run (service.pumping id sends)).2 := by
  unfold pump pumping
  cases service.socket? id with
  | none => rfl
  | some socket =>
    cases ho : socket.isOpen with
    | true =>
      simp only [ho, if_true]
      split <;> rfl
    | false =>
      simp only [ho, Bool.false_eq_true, if_false]
      rfl

/-- **What moves a service does operations to its hub.** -/
theorem move_hub (hs : service.hub.Sound) (motion : Motion) :
    (service.move motion).1.hub = (service.hub.run (service.move motion).2).2 := by
  cases motion with
  | happening happening => exact apply_hub hs happening
  | pump id sends => exact pump_hub service id sends

theorem Sound.keys_pump (hs : service.Sound) (id : Nat) (sends : Bool) :
    (service.pump id sends).sockets.map Socket.key = service.sockets.map Socket.key := by
  cases h : service.socket? id with
  | none => rw [pump_of_none h]
  | some socket =>
    cases ho : socket.isOpen with
    | true =>
      simp only [Service.pump, h, ho, if_true]
      rw [Socket.after_eq]
      exact hs.keys_put (mem_of_socket? h) _ _
    | false => rw [(pump_of_closed h ho).1]

theorem next_pump (service : Service) (id : Nat) (sends : Bool) :
    (service.pump id sends).next = service.next := by
  unfold pump
  split
  · rfl
  · split <;> rfl

theorem Sound.pump (hs : service.Sound) (id : Nat) (sends : Bool) :
    (service.pump id sends).Sound := by
  have hhub := pump_hub service id sends
  have hkeys := hs.keys_pump id sends
  refine ⟨hhub ▸ Hub.sound_run hs.hub _, hkeys ▸ hs.apart, fun key hkey => ?_⟩
  rw [hkeys] at hkey
  obtain ⟨hid, hreceiver⟩ := hs.lt key hkey
  rw [next_pump]
  exact ⟨hid, Nat.lt_of_lt_of_le hreceiver (hhub ▸ le_next_run service.hub _)⟩

theorem next_move (service : Service) (motion : Motion) :
    service.next ≤ (service.move motion).1.next := by
  cases motion with
  | happening happening => exact next_apply service happening ▸ Nat.le_add_right ..
  | pump id sends => exact (next_pump service id sends).ge

/-- **Motions keep a service sound.** -/
theorem Sound.move (hs : service.Sound) (motion : Motion) : (service.move motion).1.Sound := by
  cases motion with
  | happening happening => exact hs.apply happening
  | pump id sends => exact hs.pump id sends

theorem Sound.moves (hs : service.Sound) (motions : List Motion) :
    (service.moves motions).1.Sound := by
  induction motions generalizing service with
  | nil => exact hs
  | cons motion rest ih => exact ih (hs.move motion)

/-! ## Where sockets come from -/

/-- `socket.Fades next`: the socket has become the next one; if it is closed, it stays closed, and
its client is sent nothing more. -/
def Socket.Fades (socket next : Socket) : Prop :=
  next.key = socket.key ∧
    (socket.isOpen = false → next.isOpen = false ∧ next.outbox <:+ socket.outbox)

theorem Socket.Fades.refl (socket : Socket) : socket.Fades socket :=
  ⟨rfl, fun h => ⟨h, List.suffix_rfl⟩⟩

theorem Socket.fades_of_open (ho : socket.isOpen = true) (outbox : List Sent) (isOpen : Bool) :
    socket.Fades { socket with outbox, isOpen } :=
  ⟨rfl, fun h => absurd (ho.symm.trans h) (by decide)⟩

theorem fades_of_mem {sockets : List Socket} {other : Socket} (h : other ∈ sockets) :
    ∃ old ∈ sockets, old.Fades other :=
  ⟨other, h, .refl other⟩

variable {other : Socket}

/-- Each socket of a service that has been put in the place of another is the one it was, or that
one. -/
theorem fades_put {next : Socket} (h : socket ∈ service.sockets) (hf : socket.Fades next)
    (hother : other ∈ (service.put next).sockets) : ∃ old ∈ service.sockets, old.Fades other := by
  obtain ⟨old, hold, rfl⟩ := List.mem_map.1 hother
  split
  · exact ⟨socket, h, hf⟩
  · exact fades_of_mem hold

theorem fades_detach (h : socket ∈ service.sockets)
    (hother : other ∈ (service.detach socket).sockets) :
    ∃ old ∈ service.sockets, old.Fades other := by
  unfold detach at hother
  split at hother
  · next ho => exact fades_put h (Socket.fades_of_open ho _ _) hother
  · exact fades_of_mem hother

theorem fades_forward (hub : Hub) (socket : Socket) : socket.Fades (forward hub socket).1 := by
  by_cases ho : socket.isOpen = true
  · exact ⟨key_forward hub socket, fun h => absurd (ho.symm.trans h) (by decide)⟩
  · simpa [forward, ho] using Socket.Fades.refl socket

theorem fades_forwardAll {hub : Hub} {sockets : List Socket}
    (hother : other ∈ (forwardAll hub sockets).1) : ∃ old ∈ sockets, old.Fades other := by
  induction sockets generalizing hub with
  | nil => cases hother
  | cons first rest ih =>
    rcases List.mem_cons.1 hother with rfl | hother
    · exact ⟨first, List.mem_cons_self, fades_forward hub first⟩
    · obtain ⟨old, hold, hf⟩ := ih hother
      exact ⟨old, List.mem_cons_of_mem first hold, hf⟩

theorem fades_pump (hother : other ∈ (service.pump id sends).sockets) :
    ∃ old ∈ service.sockets, old.Fades other := by
  cases h : service.socket? id with
  | none => exact fades_of_mem (pump_of_none h ▸ hother)
  | some socket =>
    cases ho : socket.isOpen with
    | true =>
      simp only [pump, h, ho, if_true] at hother
      rw [Socket.after_eq] at hother
      exact fades_put (mem_of_socket? h) (Socket.fades_of_open ho _ _) hother
    | false => exact fades_of_mem ((pump_of_closed h ho).1 ▸ hother)

theorem fades_look (hother : other ∈ (service.look id).2.sockets) :
    ∃ old ∈ service.sockets, old.Fades other := by
  unfold look at hother
  split at hother
  · exact fades_of_mem hother
  · next socket h =>
    split at hother
    · next frame rest hout =>
      have hf : socket.Fades { socket with outbox := rest } :=
        ⟨rfl, fun hc => ⟨hc, hout ▸ List.suffix_cons frame rest⟩⟩
      exact fades_put (mem_of_socket? h) hf hother
    · exact fades_of_mem hother

theorem fades_take {frame : Received} (hother : other ∈ (service.take id frame).2.sockets) :
    ∃ old ∈ service.sockets, old.Fades other := by
  unfold take at hother
  split at hother
  · exact fades_of_mem hother
  · next socket h =>
    split at hother
    · exact fades_of_mem hother
    · next hclosed =>
      have ho : socket.isOpen = true := by simpa using hclosed
      split at hother
      · exact fades_detach (mem_of_socket? h) hother
      · split at hother
        · exact fades_put (mem_of_socket? h) (Socket.fades_of_open ho _ _) hother
        · exact fades_of_mem hother

theorem fades_disconnect (hother : other ∈ (service.disconnect id).2.sockets) :
    ∃ old ∈ service.sockets, old.Fades other := by
  unfold disconnect at hother
  split at hother
  · exact fades_of_mem hother
  · next socket h => exact fades_detach (mem_of_socket? h) (List.mem_of_mem_filter hother)

/-- A handshake adds one socket at the most, which has the next numbers. -/
theorem origin_connect {path : String}
    (hother : other ∈ (service.apply (.connect path)).2.sockets) :
    other.key = (service.next, service.hub.next) ∨ ∃ old ∈ service.sockets, old.Fades other := by
  simp only [apply, connect, handshake] at hother
  cases hd : destination path with
  | error response =>
    rw [hd] at hother
    exact .inr (fades_of_mem hother)
  | ok channel =>
    simp only [hd, Hub.subscribe, fault?_of_destination hd, List.mem_append,
      List.mem_singleton] at hother
    rcases hother with hother | rfl
    · exact .inr (fades_of_mem hother)
    · exact .inl rfl

/-- **Where a socket comes from**: it is new, or it was there before the motion. -/
theorem origin {motion : Motion} (hother : other ∈ (service.move motion).1.sockets) :
    other.key = (service.next, service.hub.next) ∨ ∃ old ∈ service.sockets, old.Fades other := by
  cases motion with
  | pump id sends => exact .inr (fades_pump hother)
  | happening happening =>
    cases happening with
    | connect path => exact origin_connect hother
    | look id => exact .inr (fades_look hother)
    | take id frame => exact .inr (fades_take hother)
    | disconnect id => exact .inr (fades_disconnect hother)
    | settle => exact .inr (fades_forwardAll hother)
    | request _ | close _ | sweep => exact .inr (fades_of_mem hother)

/-! ## Dropped receivers -/

theorem mem_forwardings {op : Hub.Operation} {hub : Hub} {sockets : List Socket}
    (h : op ∈ forwardings hub sockets) : ∃ socket ∈ sockets, socket.isOpen = true ∧
      (op = .receive socket.receiver ∨ op = .drop socket.receiver) := by
  induction sockets generalizing hub with
  | nil => cases h
  | cons first rest ih =>
    rcases List.mem_append.1 h with h | h
    · refine ⟨first, List.mem_cons_self, ?_, mem_forwarding h⟩
      by_contra ho
      simp [forwarding, ho] at h
    · obtain ⟨socket, hmem, hsocket⟩ := ih h
      exact ⟨socket, List.mem_cons_of_mem first hmem, hsocket⟩

theorem drop_mem_leaving {receiver : ReceiverId} (h : .drop receiver ∈ leaving service id) :
    ∃ socket ∈ service.sockets, socket.isOpen = true ∧ socket.receiver = receiver := by
  unfold leaving at h
  split at h
  · cases h
  · next socket hsocket =>
    split at h
    · next ho => exact ⟨socket, mem_of_socket? hsocket, ho, by simpa [eq_comm] using h⟩
    · cases h

theorem drop_mem_pumping {receiver : ReceiverId} (h : .drop receiver ∈ service.pumping id sends) :
    ∃ socket ∈ service.sockets, socket.isOpen = true ∧ socket.receiver = receiver := by
  unfold pumping at h
  split at h
  · cases h
  · next socket hsocket =>
    split at h
    · next ho =>
      refine ⟨socket, mem_of_socket? hsocket, ho, ?_⟩
      simp only [List.mem_cons, reduceCtorEq, false_or] at h
      split at h
      · cases h
      · simpa [eq_comm] using h
    · cases h

/-- What is done from outside drops no receiver. -/
theorem drop_not_mem_outside (happening : Happening) (receiver : ReceiverId) :
    .drop receiver ∉ (happening.outside?.map Outside.operation).toList := by
  intro h
  obtain ⟨outside, -, hop⟩ := Option.map_eq_some_iff.1 (Option.mem_toList.1 h)
  cases outside <;> cases hop

/-- **A receiver is dropped only by the open socket that has it.** -/
theorem drop_mem_move {motion : Motion} {receiver : ReceiverId}
    (h : .drop receiver ∈ (service.move motion).2) :
    ∃ socket ∈ service.sockets, socket.isOpen = true ∧ socket.receiver = receiver := by
  cases motion with
  | pump id sends => exact drop_mem_pumping h
  | happening happening =>
    simp only [move] at h
    cases happening with
    | connect path =>
      simp only [operations] at h
      split at h <;> simp at h
    | take id frame =>
      simp only [operations] at h
      split at h
      · exact drop_mem_leaving h
      · cases h
    | disconnect id => exact drop_mem_leaving h
    | settle =>
      obtain ⟨socket, hmem, ho, hop | hop⟩ := mem_forwardings h
      · cases hop
      · exact ⟨socket, hmem, ho, (Hub.Operation.drop.inj hop).symm⟩
    | request request => exact absurd h (drop_not_mem_outside (.request request) receiver)
    | look id => exact absurd h (drop_not_mem_outside (.look id) receiver)
    | close channel => exact absurd h (drop_not_mem_outside (.close channel) receiver)
    | sweep => exact absurd h (drop_not_mem_outside .sweep receiver)

end Service

end Custody
