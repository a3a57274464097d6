import Custody.Proofs.Hub.Feed
import Custody.Proofs.Service.Operations
/-!
# The sockets of a service

Sockets have different numbers and different receivers (`Service.Sound`), and stay so whatever
happens (`Service.Sound.record`). What happens to one client therefore leaves the sockets and the
receivers of all others as they are (`Service.Sound.spares`, `Service.Sound.socket?_apply`), and
when sockets take what their receivers hold, each takes what it would take alone
(`Service.Sound.socket?_settle`).
-/

namespace Custody

namespace Service

variable {hub : Hub} {service : Service} {id : Nat}

/-! ## Sound services -/

/-- The number of a socket and that of its receiver. -/
def Socket.key (socket : Socket) : Nat × ReceiverId :=
  (socket.id, socket.receiver)

/-- Sockets have different numbers and different receivers, all below the next ones. -/
structure Sound (service : Service) : Prop where
  hub : service.hub.Sound
  apart : (service.sockets.map Socket.key).Pairwise fun key other =>
    key.1 ≠ other.1 ∧ key.2 ≠ other.2
  lt : ∀ key ∈ service.sockets.map Socket.key, key.1 < service.next ∧ key.2 < service.hub.next

variable {socket next : Socket}

theorem mem_of_socket? (h : service.socket? id = some socket) : socket ∈ service.sockets :=
  List.mem_of_find?_eq_some h

theorem id_of_socket? (h : service.socket? id = some socket) : socket.id = id := by
  simpa using List.find?_some h

theorem Sound.eq_of_id (hs : service.Sound) (h : socket ∈ service.sockets)
    (h' : next ∈ service.sockets) (hid : socket.id = next.id) : socket = next :=
  List.inj_on_of_nodup_map
    (List.pairwise_map.2 ((List.pairwise_map.1 hs.apart).imp And.left)) h h' hid

theorem Sound.eq_of_receiver (hs : service.Sound) (h : socket ∈ service.sockets)
    (h' : next ∈ service.sockets) (hr : socket.receiver = next.receiver) : socket = next :=
  List.inj_on_of_nodup_map
    (List.pairwise_map.2 ((List.pairwise_map.1 hs.apart).imp And.right)) h h' hr

theorem sound_new (hs : hub.Sound) : (Service.new hub).Sound :=
  ⟨hs, .nil, nofun⟩

/-! ### What happens to sockets -/

/-- A socket is put in its own place. -/
theorem Sound.keys_put (hs : service.Sound) (h : socket ∈ service.sockets) (outbox : List Sent)
    (isOpen : Bool) :
    (service.put { socket with outbox, isOpen }).sockets.map Socket.key =
      service.sockets.map Socket.key := by
  simp only [put, List.map_map]
  refine List.map_congr_left fun other hother => ?_
  simp only [Function.comp]
  split
  · next ho => rw [hs.eq_of_id hother h ho, Socket.key, Socket.key]
  · rfl

theorem Sound.keys_detach (hs : service.Sound) (h : socket ∈ service.sockets) :
    (service.detach socket).sockets.map Socket.key = service.sockets.map Socket.key := by
  unfold detach
  split
  · exact hs.keys_put h _ _
  · rfl

theorem key_forward (hub : Hub) (socket : Socket) : (forward hub socket).1.key = socket.key := by
  unfold forward
  dsimp only
  split
  · split <;> rfl
  · rfl

theorem keys_forwardAll (hub : Hub) (sockets : List Socket) :
    (forwardAll hub sockets).1.map Socket.key = sockets.map Socket.key := by
  induction sockets generalizing hub with
  | nil => rfl
  | cons socket rest ih => simp only [forwardAll, List.map_cons, key_forward, ih]

/-- The keys of the sockets that what happens opens. -/
def newKeys (service : Service) : Happening → List (Nat × ReceiverId)
  | .connect path =>
    match destination path with
    | .ok _ => [(service.next, service.hub.next)]
    | .error _ => []
  | _ => []

/-- **No socket changes its number or its receiver.** -/
theorem Sound.keys_apply (hs : service.Sound) (happening : Happening) :
    ((service.apply happening).2.sockets.map Socket.key).Sublist
      (service.sockets.map Socket.key ++ service.newKeys happening) := by
  cases happening with
  | request request => simp [apply, Service.request, newKeys]
  | connect path =>
    simp only [apply, connect, handshake, newKeys]
    cases hd : destination path with
    | error response => simp
    | ok channel => simp [Hub.subscribe, fault?_of_destination hd, Socket.key]
  | look id =>
    simp only [apply, look, newKeys, List.append_nil]
    cases h : service.socket? id with
    | none => exact .refl _
    | some socket =>
      dsimp only
      split
      · rw [hs.keys_put (mem_of_socket? h)]
      · exact .refl _
  | take id frame =>
    simp only [apply, take, newKeys, List.append_nil]
    cases h : service.socket? id with
    | none => exact .refl _
    | some socket =>
      dsimp only
      split
      · exact .refl _
      · split
        · rw [hs.keys_detach (mem_of_socket? h)]
        · split
          · rw [hs.keys_put (mem_of_socket? h)]
          · exact .refl _
  | disconnect id =>
    simp only [apply, disconnect, newKeys, List.append_nil]
    cases h : service.socket? id with
    | none => exact .refl _
    | some socket =>
      rw [← hs.keys_detach (mem_of_socket? h)]
      exact List.filter_sublist.map _
  | close channel => simp [apply, newKeys]
  | settle => simp [apply, settle, keys_forwardAll, newKeys]
  | sweep => simp [apply, sweep, newKeys]

theorem next_apply (service : Service) (happening : Happening) :
    (service.apply happening).2.next = service.next + (service.newKeys happening).length := by
  cases happening with
  | connect path =>
    simp only [apply, connect, handshake, newKeys]
    cases hd : destination path with
    | error response => rfl
    | ok channel => simp [Hub.subscribe, fault?_of_destination hd]
  | look id =>
    simp only [apply, look, newKeys]
    split
    · rfl
    · split <;> rfl
  | take id frame =>
    simp only [apply, take, newKeys]
    split
    · rfl
    · split
      · rfl
      · split
        · unfold detach
          split <;> rfl
        · split <;> rfl
  | disconnect id =>
    simp only [apply, disconnect, newKeys]
    split
    · rfl
    · unfold detach
      split <;> rfl
  | _ => rfl

theorem le_next_run (hub : Hub) (ops : List Hub.Operation) : hub.next ≤ (hub.run ops).2.next := by
  induction ops generalizing hub with
  | nil => exact Nat.le_refl _
  | cons op rest ih =>
    have hnext := (hub.capacity_next_apply op).2
    exact Nat.le_trans (hnext ▸ Nat.le_add_right _ _) (ih (hub.apply op).2)

/-- The keys of new sockets are the next ones, and are taken. -/
theorem mem_newKeys (hs : service.hub.Sound) {happening : Happening} {key : Nat × ReceiverId}
    (h : key ∈ service.newKeys happening) :
    key = (service.next, service.hub.next) ∧ service.newKeys happening = [key] ∧
      (service.apply happening).2.hub.next = service.hub.next + 1 := by
  cases happening with
  | connect path =>
    simp only [newKeys] at h ⊢
    cases hd : destination path with
    | error response => rw [hd] at h; cases h
    | ok channel =>
      rw [hd] at h
      obtain rfl := List.mem_singleton.1 h
      refine ⟨rfl, rfl, ?_⟩
      simp [apply_hub hs, operations, hd, Hub.run, Hub.apply, Hub.subscribe,
        fault?_of_destination hd]
  | _ => cases h

/-- **A service stays sound** whatever happens. -/
theorem Sound.apply (hs : service.Sound) (happening : Happening) :
    (service.apply happening).2.Sound := by
  have hhub := apply_hub hs.hub happening
  have hle : service.hub.next ≤ (service.apply happening).2.hub.next :=
    hhub ▸ le_next_run service.hub _
  have hkeys := hs.keys_apply happening
  have hnext := next_apply service happening
  refine ⟨hhub ▸ Hub.sound_run hs.hub _, List.Pairwise.sublist hkeys ?_, fun key hkey => ?_⟩
  · refine List.pairwise_append.2 ⟨hs.apart, ?_, fun key hkey new hnew => ?_⟩
    · cases hn : service.newKeys happening with
      | nil => exact .nil
      | cons key rest =>
        rw [← hn, (mem_newKeys hs.hub (hn ▸ List.mem_cons_self)).2.1]
        exact List.pairwise_singleton ..
    · rw [(mem_newKeys hs.hub hnew).1]
      exact ⟨Nat.ne_of_lt (hs.lt key hkey).1, Nat.ne_of_lt (hs.lt key hkey).2⟩
  · rcases List.mem_append.1 (hkeys.subset hkey) with hold | hnew
    · obtain ⟨hid, hreceiver⟩ := hs.lt key hold
      exact ⟨hnext ▸ Nat.lt_add_right _ hid, Nat.lt_of_lt_of_le hreceiver hle⟩
    · obtain ⟨rfl, hone, hhubnext⟩ := mem_newKeys hs.hub hnew
      simp [hnext, hone, hhubnext]

/-- **A history keeps a service sound.** -/
theorem Sound.record (hs : service.Sound) (happenings : List Happening) :
    (service.record happenings).2.Sound := by
  induction happenings generalizing service with
  | nil => exact hs
  | cons happening rest ih => exact ih (hs.apply happening)

/-! ## What happens to others -/

/-- What happens is not about the socket, and no socket forwards. -/
def Happening.Spares (id : Nat) : Happening → Prop
  | look other => other ≠ id
  | take other _ => other ≠ id
  | disconnect other => other ≠ id
  | settle => False
  | request _ | connect _ | close _ | sweep => True

theorem socket?_put_of_ne (service : Service) (h : next.id ≠ id) :
    (service.put next).socket? id = service.socket? id := by
  have hne : (next.id == id) = false := beq_false_of_ne h
  simp only [socket?, put]
  induction service.sockets with
  | nil => rfl
  | cons first rest ih =>
    rw [List.map_cons, List.find?_cons, List.find?_cons, ih]
    by_cases hf : first.id = next.id
    · simp [hf, hne]
    · simp [hf]

theorem socket?_detach_of_ne (service : Service) (h : next.id ≠ id) :
    (service.detach next).socket? id = service.socket? id := by
  unfold detach
  split
  · exact socket?_put_of_ne service h
  · rfl

/-- **What happens to others leaves a socket as it is.** -/
theorem socket?_apply (hsocket : service.socket? id = some socket) {happening : Happening}
    (h : happening.Spares id) : (service.apply happening).2.socket? id = some socket := by
  cases happening with
  | request request => exact hsocket
  | connect path =>
    simp only [apply, connect]
    cases handshake service.hub path with
    | error response => exact hsocket
    | ok attached =>
      have hfind : service.sockets.find? (·.id == id) = some socket := hsocket
      simp [socket?, hfind]
  | look other =>
    simp only [apply, look]
    cases ho : service.socket? other with
    | none => exact hsocket
    | some found =>
      have hne : found.id ≠ id := id_of_socket? ho ▸ h
      rw [← hsocket]
      dsimp only
      split
      · exact socket?_put_of_ne service hne
      · rfl
  | take other frame =>
    simp only [apply, take]
    cases ho : service.socket? other with
    | none => exact hsocket
    | some found =>
      have hne : found.id ≠ id := id_of_socket? ho ▸ h
      rw [← hsocket]
      dsimp only
      split
      · rfl
      · split
        · exact socket?_detach_of_ne service hne
        · split
          · exact socket?_put_of_ne service hne
          · rfl
  | disconnect other =>
    simp only [apply, disconnect]
    cases ho : service.socket? other with
    | none => exact hsocket
    | some found =>
      have hne : found.id ≠ id := id_of_socket? ho ▸ h
      have hfilter : (fun left : Socket => decide (decide (left.id ≠ other) = true ∧
          (left.id == id) = true)) = fun left => left.id == id := by
        funext left
        by_cases ho : left.id = id <;> simp [ho, h.symm]
      rw [← hsocket, ← socket?_detach_of_ne service hne]
      simp only [socket?, List.find?_filter, hfilter]
  | close channel => exact hsocket
  | settle => exact h.elim
  | sweep => exact hsocket

/-- **What happens to others leaves a receiver as it is**, but for what is published and closed. -/
theorem Sound.spares (hs : service.Sound) (hsocket : service.socket? id = some socket)
    {happening : Happening} (h : happening.Spares id) :
    ∀ op ∈ service.operations happening, op.Spares socket.receiver := by
  have hleaving {other : Nat} (hne : other ≠ id) :
      ∀ op ∈ leaving service other, op.Spares socket.receiver := by
    intro op hop
    unfold leaving at hop
    split at hop
    · cases hop
    · next found hfound =>
      split at hop
      · obtain rfl := List.mem_singleton.1 hop
        have hids : found.id ≠ socket.id := by
          rwa [id_of_socket? hfound, id_of_socket? hsocket]
        exact Hub.Operation.spares_drop fun hreceiver => hids (congrArg Socket.id
          (hs.eq_of_receiver (mem_of_socket? hfound) (mem_of_socket? hsocket) hreceiver))
      · cases hop
  have houtside (happening : Happening) :
      ∀ op ∈ (happening.outside?.map Outside.operation).toList, op.Spares socket.receiver := by
    intro op hop
    obtain ⟨outside, -, rfl⟩ := Option.map_eq_some_iff.1 (Option.mem_toList.1 hop)
    exact Hub.Operation.spares_outside _ outside
  cases happening with
  | connect path =>
    intro op hop
    simp only [operations] at hop
    split at hop
    · obtain rfl := List.mem_singleton.1 hop
      exact Hub.Operation.spares_subscribe _ _
    · cases hop
  | take other frame =>
    simp only [operations]
    split
    · exact hleaving h
    · simp
  | disconnect other => exact hleaving h
  | settle => exact h.elim
  | request request => exact houtside (.request request)
  | look other => exact houtside (.look other)
  | close channel => exact houtside (.close channel)
  | sweep => exact houtside .sweep

/-! ## Sockets that forward -/

theorem Sound.socket?_eq_some_iff (hs : service.Sound) :
    service.socket? id = some socket ↔ socket ∈ service.sockets ∧ socket.id = id := by
  constructor
  · exact fun h => ⟨mem_of_socket? h, id_of_socket? h⟩
  · rintro ⟨hmem, rfl⟩
    cases h : service.socket? socket.id with
    | none =>
      have hnone := List.find?_eq_none.1 h socket hmem
      simp at hnone
    | some other => rw [hs.eq_of_id (mem_of_socket? h) hmem (id_of_socket? h)]

/-- What a socket does that forwards is about its own receiver. -/
theorem mem_forwarding {op : Hub.Operation} (h : op ∈ forwarding hub socket) :
    op = .receive socket.receiver ∨ op = .drop socket.receiver := by
  unfold forwarding at h
  split at h
  · rcases List.mem_append.1 h with h | h
    · exact .inl (List.eq_of_mem_replicate h)
    · split at h
      · exact .inr (List.mem_singleton.1 h)
      · cases h
  · cases h

/-- A socket that forwards leaves the receivers of others as they are. -/
theorem receiver?_forward (hs : hub.Sound) {id : ReceiverId} (hid : id < hub.next)
    (hne : socket.receiver ≠ id) : (forward hub socket).2.receiver? id = hub.receiver? id := by
  rw [forward_hub hs]
  have hops : ∀ op ∈ forwarding hub socket, _ := fun _ => mem_forwarding
  generalize forwarding hub socket = ops at hops
  induction ops generalizing hub with
  | nil => rfl
  | cons op rest ih =>
    have hid' : id < (hub.apply op).2.next :=
      (hub.capacity_next_apply op).2 ▸ Nat.lt_add_right _ hid
    rw [Hub.run_cons, ih (hs.apply op) hid' fun other hother =>
      hops other (List.mem_cons_of_mem op hother), Hub.receiver?_apply hs op hid]
    cases hr : hub.receiver? id with
    | none => rfl
    | some r =>
      obtain rfl := Hub.id_of_receiver? hr
      rcases hops op List.mem_cons_self with rfl | rfl <;> simp [Receiver.after?, hne.symm]

/-- Sockets that forward leave the receivers of others as they are. -/
theorem receiver?_forwardAll (hs : hub.Sound) {sockets : List Socket} {id : ReceiverId}
    (hid : id < hub.next) (hne : ∀ socket ∈ sockets, socket.receiver ≠ id) :
    (forwardAll hub sockets).2.receiver? id = hub.receiver? id := by
  induction sockets generalizing hub with
  | nil => rfl
  | cons first rest ih =>
    obtain ⟨hfirst, hrest⟩ := List.forall_mem_cons.1 hne
    have hnext := forward_hub hs first
    rw [forwardAll, ih (hnext ▸ Hub.sound_run hs _)
      (Nat.lt_of_lt_of_le hid (hnext ▸ le_next_run hub _)) hrest, receiver?_forward hs hid hfirst]

/-- What becomes of a socket and of its receiver when the socket forwards. -/
def Socket.forwarded (socket : Socket) (receiver? : Option Receiver) : Socket × Option Receiver :=
  if socket.isOpen then
    match receiver? with
    | none => ({ socket with outbox := socket.outbox ++ [.close], isOpen := false }, none)
    | some r =>
      if r.isOpen then
        ({ socket with outbox := socket.outbox ++ r.pending.map .text },
          some { r with pending := [] })
      else
        ({ socket with
            outbox := socket.outbox ++ r.pending.map .text ++ [.close]
            isOpen := false },
          none)
  else
    (socket, receiver?)

theorem receiver?_drop (hs : hub.Sound) {id : ReceiverId} (hid : id < hub.next) :
    (hub.drop id).2.receiver? id = none := by
  have hdrop := Hub.receiver?_apply hs (.drop id) hid
  rw [show (hub.drop id).2 = (hub.apply (.drop id)).2 from rfl, hdrop]
  cases hr : hub.receiver? id with
  | none => rfl
  | some r => simp [Receiver.after?, Hub.id_of_receiver? hr]

/-- **What a socket takes depends on its receiver alone.** -/
theorem forward_eq (hs : hub.Sound) (hid : socket.receiver < hub.next) :
    (forward hub socket).1 = (socket.forwarded (hub.receiver? socket.receiver)).1 ∧
      (forward hub socket).2.receiver? socket.receiver =
        (socket.forwarded (hub.receiver? socket.receiver)).2 := by
  by_cases ho : socket.isOpen = true
  · cases hr : hub.receiver? socket.receiver with
    | none =>
      simp only [forward, Socket.forwarded, ho, if_true, Hub.drain_of_none hr, List.map_nil,
        List.append_nil]
      exact ⟨trivial, receiver?_drop hs hid⟩
    | some r =>
      simp only [forward, Socket.forwarded, ho, if_true, Hub.drain_eq hs hr]
      cases hopen : r.isOpen with
      | true =>
        simp [Hub.receiver?_skim hr, hopen]
      | false =>
        simp only [Bool.not_false, if_true, Bool.false_eq_true, if_false]
        exact ⟨trivial, receiver?_drop (hs.skim ..) hid⟩
  · simp [forward, Socket.forwarded, ho]

/-- **Each socket takes what it would take alone.** -/
theorem forwardAll_of_mem (hs : hub.Sound) {sockets : List Socket}
    (hlt : ∀ other ∈ sockets, other.receiver < hub.next)
    (hapart : sockets.Pairwise fun other later => other.receiver ≠ later.receiver)
    (hmem : socket ∈ sockets) :
    (socket.forwarded (hub.receiver? socket.receiver)).1 ∈ (forwardAll hub sockets).1 ∧
      (forwardAll hub sockets).2.receiver? socket.receiver =
        (socket.forwarded (hub.receiver? socket.receiver)).2 := by
  induction sockets generalizing hub with
  | nil => cases hmem
  | cons first rest ih =>
    have hnext := forward_hub hs first
    have hsound : (forward hub first).2.Sound := hnext ▸ Hub.sound_run hs _
    have hle : hub.next ≤ (forward hub first).2.next := hnext ▸ le_next_run hub _
    obtain ⟨hfirst, hrest⟩ := List.forall_mem_cons.1 hlt
    obtain ⟨hother, hapart⟩ := List.pairwise_cons.1 hapart
    rcases List.mem_cons.1 hmem with rfl | hmem
    · -- those who come after it leave its receiver as it is
      obtain ⟨htaken, hreceiver⟩ := forward_eq hs hfirst
      refine ⟨htaken ▸ List.mem_cons_self, ?_⟩
      rw [← hreceiver, forwardAll]
      exact receiver?_forwardAll hsound (Nat.lt_of_lt_of_le hfirst hle)
        fun other hmem => (hother other hmem).symm
    · have hsame := receiver?_forward hs (hrest socket hmem) (hother socket hmem)
      obtain ⟨htaken, hreceiver⟩ := ih hsound
        (fun other hmem => Nat.lt_of_lt_of_le (hrest other hmem) hle) hapart hmem
      rw [hsame] at htaken hreceiver
      exact ⟨List.mem_cons_of_mem _ htaken, hreceiver⟩

/-- **A socket and its receiver after all sockets have forwarded.** -/
theorem Sound.socket?_settle (hs : service.Sound) (h : service.socket? id = some socket) :
    service.settle.socket? id =
        some (socket.forwarded (service.hub.receiver? socket.receiver)).1 ∧
      service.settle.hub.receiver? socket.receiver =
        (socket.forwarded (service.hub.receiver? socket.receiver)).2 := by
  obtain ⟨hmem, hreceiver⟩ := forwardAll_of_mem hs.hub
    (fun other hother => (hs.lt _ (List.mem_map_of_mem hother)).2)
    ((List.pairwise_map.1 hs.apart).imp And.right) (mem_of_socket? h)
  have hid : (socket.forwarded (service.hub.receiver? socket.receiver)).1.id = id := by
    rw [← id_of_socket? h]
    unfold Socket.forwarded
    split
    · split
      · rfl
      · split <;> rfl
    · rfl
  exact ⟨(hs.apply .settle).socket?_eq_some_iff.2 ⟨hmem, hid⟩, hreceiver⟩

end Service

end Custody
