import Custody.Proofs.Hub.RingHub
import Custody.Proofs.Service.History
/-!
# Pruning under a service

Two services whose hubs are alike and whose sockets are the same (`Service.Alike`) stay so whatever
happens to them and answer alike, but for the number of channels in the answer to a look at the
health. So the time between two sweeps is nothing that clients can tell (`pruning_unobservable`).

* `Service.Alike.apply`: two services alike after what happens, and what they answer.
* `Service.seen`: what clients learn from a history.
* `Service.Server.Alike.play`: two servers that differ in their period.
-/

namespace Custody

open Json

namespace Service

/-! ## What clients learn -/

/-- An answer without the number of channels in its body. -/
def Response.withoutChannels : Response → Response
  | ⟨status, some (.object members)⟩ =>
    ⟨status, some (.object (members.filter (·.1 ≠ "channels")))⟩
  | response => response

/-- What a client learns from an entry of a history, apart from the number of channels that the
answer to a look at the health gives. Of a sweep, and of the close of a channel by one who holds the
hub, no client learns anything. -/
def seen? : Happening × Reply → Option (Happening × Reply)
  | (.sweep, _) => none
  | (.close _, _) => none
  | (.request request, .answered response) =>
    if route request.path = some .health then
      some (.request request, .answered response.withoutChannels)
    else
      some (.request request, .answered response)
  | entry => some entry

/-- What clients learn from a history. -/
def seen (entries : List (Happening × Reply)) : List (Happening × Reply) :=
  entries.filterMap seen?

/-! ## Services alike -/

/-- Two services differ at most in the channels that their hubs track. -/
structure Alike (service other : Service) : Prop where
  hub : service.hub.Alike other.hub
  sockets : service.sockets = other.sockets
  next : service.next = other.next

section

variable {service other third : Service}

/-- Services alike are one service with two hubs. -/
theorem Alike.eq_with (h : service.Alike other) : other = { service with hub := other.hub } := by
  obtain ⟨hub, sockets, next⟩ := other
  obtain ⟨-, rfl, rfl⟩ := h
  rfl

theorem Alike.refl (service : Service) : service.Alike service :=
  ⟨.refl _, rfl, rfl⟩

theorem Alike.symm (h : service.Alike other) : other.Alike service :=
  ⟨h.hub.symm, h.sockets.symm, h.next.symm⟩

theorem Alike.trans (h : service.Alike other) (h' : other.Alike third) : service.Alike third :=
  ⟨h.hub.trans h'.hub, h.sockets.trans h'.sockets, h.next.trans h'.next⟩

theorem Alike.sweep (service : Service) : service.sweep.Alike service :=
  ⟨.prune _, rfl, rfl⟩

end

section

variable {hub other : Hub}

/-! ## Requests -/

theorem Response.withoutChannels_healthValue (hub other : Hub) :
    Response.withoutChannels ⟨200, some (healthValue hub)⟩ =
      Response.withoutChannels ⟨200, some (healthValue other)⟩ := by
  simp [Response.withoutChannels, healthValue]

theorem publish_alike (h : hub.Alike other) (request : Request) :
    (publish hub request).1 = (publish other request).1 ∧
      (publish hub request).2.Alike (publish other request).2 := by
  unfold publish
  split
  · exact ⟨rfl, h⟩
  · split
    · exact ⟨rfl, h⟩
    · split
      · exact ⟨rfl, h⟩
      · next message _ =>
        rcases h.publish message.channel message.payload with
          ⟨e, he, he'⟩ | ⟨count, hub', other', hok, hok', halike⟩
        · rw [he, he']
          exact ⟨rfl, h⟩
        · rw [hok, hok']
          exact ⟨rfl, halike⟩

/-- **A request is answered alike by two hubs alike**, and they are alike after it. -/
theorem handle_alike (h : hub.Alike other) (request : Request) :
    seen? (.request request, .answered (handle hub request).1) =
        seen? (.request request, .answered (handle other request).1) ∧
      (handle hub request).2.Alike (handle other request).2 := by
  unfold handle
  split
  · exact ⟨rfl, h⟩
  · split
    · exact ⟨rfl, h⟩
    · next hroute =>
      split
      · simp only [seen?, hroute, if_true, Response.withoutChannels_healthValue hub other]
        exact ⟨trivial, h⟩
      · split <;> exact ⟨rfl, h⟩
    · split
      · obtain ⟨hsame, halike⟩ := publish_alike h request
        exact ⟨by rw [hsame], halike⟩
      · exact ⟨rfl, h⟩
    · split <;> exact ⟨rfl, h⟩

theorem handshake_alike (h : hub.Alike other) (path : String) :
    (∃ response, handshake hub path = .error response ∧ handshake other path = .error response) ∨
      ∃ id hub' other', handshake hub path = .ok (id, hub') ∧
        handshake other path = .ok (id, other') ∧ hub'.Alike other' := by
  unfold handshake
  cases destination path with
  | error response => exact .inl ⟨response, rfl, rfl⟩
  | ok channel =>
    rcases h.subscribe channel with ⟨e, he, he'⟩ | ⟨id, hub', other', hok, hok', halike⟩
    · exact .inl ⟨.refused e, by simp only [he], by simp only [he']⟩
    · exact .inr ⟨id, hub', other', by simp only [hok], by simp only [hok'], halike⟩

/-! ## Sockets -/

theorem forward_alike (h : hub.Alike other) (socket : Socket) :
    (forward hub socket).1 = (forward other socket).1 ∧
      (forward hub socket).2.Alike (forward other socket).2 := by
  unfold forward
  split
  · obtain ⟨hpayloads, hended, halike⟩ := h.drain socket.receiver
    simp only [hpayloads, hended]
    split
    · exact ⟨rfl, (halike.drop socket.receiver).2⟩
    · exact ⟨rfl, halike⟩
  · exact ⟨rfl, h⟩

theorem forwardAll_alike (h : hub.Alike other) (sockets : List Socket) :
    (forwardAll hub sockets).1 = (forwardAll other sockets).1 ∧
      (forwardAll hub sockets).2.Alike (forwardAll other sockets).2 := by
  induction sockets generalizing hub other with
  | nil => exact ⟨rfl, h⟩
  | cons socket rest ih =>
    obtain ⟨hsocket, hnext⟩ := forward_alike h socket
    obtain ⟨hrest, halike⟩ := ih hnext
    simp only [forwardAll, hsocket, hrest]
    exact ⟨trivial, halike⟩

end

end Service

namespace Service.Alike

variable {service other : Service}

theorem socket? (h : service.Alike other) (id : Nat) :
    service.socket? id = other.socket? id := by
  rw [Service.socket?, Service.socket?, h.sockets]

theorem put (h : service.Alike other) (socket : Socket) :
    (service.put socket).Alike (other.put socket) :=
  ⟨h.hub, by simp only [Service.put, h.sockets], h.next⟩

theorem settle (h : service.Alike other) : service.settle.Alike other.settle := by
  rw [h.eq_with]
  obtain ⟨hsockets, hhub⟩ := forwardAll_alike h.hub service.sockets
  exact ⟨hhub, hsockets, rfl⟩

theorem detach (h : service.Alike other) (socket : Socket) :
    (service.detach socket).Alike (other.detach socket) := by
  rw [h.eq_with]
  unfold Service.detach
  split
  · exact ⟨(h.hub.drop socket.receiver).2, rfl, rfl⟩
  · exact ⟨h.hub, rfl, rfl⟩

theorem connect (h : service.Alike other) (path : String) :
    (∃ response, service.connect path = .error response ∧ other.connect path = .error response) ∨
      ∃ id service' other', service.connect path = .ok (id, service') ∧
        other.connect path = .ok (id, other') ∧ service'.Alike other' := by
  rw [h.eq_with]
  unfold Service.connect
  rcases handshake_alike h.hub path with
    ⟨response, he, he'⟩ | ⟨id, hub', other', hok, hok', halike⟩
  · exact .inl ⟨response, by simp only [he], by simp only [he']⟩
  · simp only [hok, hok']
    exact .inr ⟨_, _, _, rfl, rfl, halike, rfl, rfl⟩

theorem look (h : service.Alike other) (id : Nat) :
    (service.look id).1 = (other.look id).1 ∧ (service.look id).2.Alike (other.look id).2 := by
  unfold Service.look
  rw [h.socket?]
  cases other.socket? id with
  | none => exact ⟨rfl, h⟩
  | some socket =>
    dsimp only
    split
    · exact ⟨rfl, h.put _⟩
    · exact ⟨rfl, h⟩

theorem take (h : service.Alike other) (id : Nat) (frame : Received) :
    (service.take id frame).1 = (other.take id frame).1 ∧
      (service.take id frame).2.Alike (other.take id frame).2 := by
  unfold Service.take
  rw [h.socket?]
  cases other.socket? id with
  | none => exact ⟨rfl, h⟩
  | some socket =>
    dsimp only
    split
    · exact ⟨rfl, h⟩
    · split
      · exact ⟨rfl, h.detach socket⟩
      · cases frame with
        | ping payload => exact ⟨rfl, h.put _⟩
        | _ => exact ⟨rfl, h⟩

theorem disconnect (h : service.Alike other) (id : Nat) :
    (service.disconnect id).1 = (other.disconnect id).1 ∧
      (service.disconnect id).2.Alike (other.disconnect id).2 := by
  unfold Service.disconnect
  rw [h.socket?]
  cases other.socket? id with
  | none => exact ⟨rfl, h⟩
  | some socket =>
    have hd := h.detach socket
    exact ⟨rfl, hd.hub, by simp only [hd.sockets], hd.next⟩

/-- **What happens to two services alike** is answered alike, as far as clients learn it, and they
are alike after it. -/
theorem apply (h : service.Alike other) (happening : Happening) :
    seen? (happening, (service.apply happening).1) = seen? (happening, (other.apply happening).1) ∧
      (service.apply happening).2.Alike (other.apply happening).2 := by
  cases happening with
  | request request =>
    obtain ⟨hseen, halike⟩ := handle_alike h.hub request
    exact ⟨hseen, halike, h.sockets, h.next⟩
  | connect path =>
    rcases h.connect path with ⟨response, he, he'⟩ | ⟨id, service', other', hok, hok', halike⟩
    · simp only [Service.apply, he, he']
      exact ⟨trivial, h⟩
    · simp only [Service.apply, hok, hok']
      exact ⟨trivial, halike⟩
  | look id =>
    obtain ⟨hlooked, halike⟩ := h.look id
    simp only [Service.apply, hlooked]
    exact ⟨trivial, halike⟩
  | take id frame =>
    obtain ⟨hsent, halike⟩ := h.take id frame
    simp only [Service.apply, hsent]
    exact ⟨trivial, halike⟩
  | disconnect id =>
    obtain ⟨hexisted, halike⟩ := h.disconnect id
    simp only [Service.apply, hexisted]
    exact ⟨trivial, halike⟩
  | close channel => exact ⟨rfl, h.hub.close channel, h.sockets, h.next⟩
  | settle => exact ⟨rfl, h.settle⟩
  | sweep => exact ⟨rfl, (sweep service).trans (h.trans (sweep other).symm)⟩

end Service.Alike

/-! ## Histories -/

namespace Service

variable {service other : Service}

/-- The entry is no sweep. -/
def Happening.isSweep : Happening → Bool
  | sweep => true
  | _ => false

theorem Happening.isSweep_iff {happening : Happening} :
    happening.isSweep = true ↔ happening = .sweep := by
  cases happening <;> simp [isSweep]

/-- **Without its sweeps a history is the same** to clients, also that of another service that is
alike. -/
theorem Alike.record (h : service.Alike other) (happenings : List Happening) :
    seen (service.record happenings).1 =
        seen (other.record (happenings.filter (!·.isSweep))).1 ∧
      (service.record happenings).2.Alike
        (other.record (happenings.filter (!·.isSweep))).2 := by
  induction happenings generalizing service other with
  | nil => exact ⟨rfl, h⟩
  | cons happening rest ih =>
    by_cases hsweep : happening.isSweep = true
    · -- the other history has no such entry
      obtain rfl := Happening.isSweep_iff.1 hsweep
      exact ih ((sweep service).trans h)
    · obtain ⟨hseen, hnext⟩ := h.apply happening
      obtain ⟨hrest, halike⟩ := ih hnext
      have hkept : (happening :: rest).filter (!·.isSweep) =
          happening :: rest.filter (!·.isSweep) := by
        simp [hsweep]
      rw [hkept]
      refine ⟨?_, halike⟩
      simp only [Service.record, seen, List.filterMap_cons, hseen]
      simp only [seen] at hrest
      rw [hrest]

/-- **Sweeps cannot be seen**: histories that differ only in their sweeps tell clients the same. -/
theorem seen_record {happenings others : List Happening}
    (h : happenings.filter (!·.isSweep) = others.filter (!·.isSweep)) :
    seen (service.record happenings).1 = seen (service.record others).1 ∧
      (service.record happenings).2.Alike (service.record others).2 := by
  obtain ⟨hseen, halike⟩ := (Alike.refl service).record happenings
  obtain ⟨hseen', halike'⟩ := (Alike.refl service).record others
  rw [h] at hseen halike
  exact ⟨hseen.trans hseen'.symm, halike.trans halike'.symm⟩

/-! ## Servers -/

namespace Server

variable {server other : Server}

/-- Time that passes leaves services alike, whichever of them sweeps. -/
theorem pass_alike (h : server.service.Alike other.service) (millis : Nat) :
    (server.pass millis).service.Alike (other.pass millis).service := by
  have hsettled := h.settle
  unfold pass
  split <;> split
  · exact (Alike.sweep _).trans (hsettled.trans (Alike.sweep _).symm)
  · exact (Alike.sweep _).trans hsettled
  · exact hsettled.trans (Alike.sweep _).symm
  · exact hsettled

/-- **Servers whose services are alike tell clients the same**, whatever their periods are. -/
theorem play_alike (h : server.service.Alike other.service) (script : List (Happening × Nat)) :
    seen (server.play script).1 = seen (other.play script).1 ∧
      (server.play script).2.service.Alike (other.play script).2.service := by
  induction script generalizing server other with
  | nil => exact ⟨rfl, h⟩
  | cons entry rest ih =>
    obtain ⟨happening, millis⟩ := entry
    obtain ⟨hseen, hnext⟩ := h.apply happening
    obtain ⟨hrest, halike⟩ := ih (@pass_alike
      { server with service := (server.service.apply happening).2 }
      { other with service := (other.service.apply happening).2 } hnext millis)
    refine ⟨?_, halike⟩
    simp only [play, seen, List.filterMap_cons, hseen]
    simp only [seen] at hrest
    rw [hrest]

end Server

end Service

/-! ## Nobody can tell -/

/-- **Pruning is unobservable.** Take any hub and two lists of what is done with it, looks at its
counts included, that differ only in their prunes. Each subscription, publish, reading, drop and
count of subscribers finds the same in both, and the receivers after them are the same: what differs
is the number of channels, and what closes and prunes answer. This is no accident of a hub that
keeps the unread payloads with the receivers: one that keeps them in rings, which a prune forgets
with all that is left in them, finds the same in every history, and so tells no more. The same holds
of a service and its sweeps, and so of two servers that are started with the same options but for
the interval of the sweeps: under any script of clients each reply is the same, but for the number
of channels in the answer to a look at the health, and so are the sockets with all the frames on
their way. -/
theorem pruning_unobservable :
    (∀ (hub : Hub) (uses others : List Hub.Use),
      uses.filter (!·.isPrune) = others.filter (!·.isPrune) →
      Hub.audible (hub.record uses).1 = Hub.audible (hub.record others).1 ∧
        (hub.record uses).2.receivers = (hub.record others).2.receivers) ∧
    (∀ (capacity : Nat) (uses : List Hub.Use),
      ((RingHub.new capacity).record uses).1 = ((Hub.new capacity).record uses).1) ∧
    (∀ (capacity : Nat) (uses others : List Hub.Use),
      uses.filter (!·.isPrune) = others.filter (!·.isPrune) →
      Hub.audible ((RingHub.new capacity).record uses).1 =
        Hub.audible ((RingHub.new capacity).record others).1) ∧
    (∀ (service : Service) (happenings others : List Service.Happening),
      happenings.filter (!·.isSweep) = others.filter (!·.isSweep) →
      Service.seen (service.record happenings).1 = Service.seen (service.record others).1 ∧
        (service.record happenings).2.sockets = (service.record others).2.sockets) ∧
    ∀ (options : Service.Options) (interval : Nat) (script : List (Service.Happening × Nat)),
      let played := (Service.Server.start options).play script
      let other := (Service.Server.start { options with interval }).play script
      Service.seen played.1 = Service.seen other.1 ∧
        played.2.service.sockets = other.2.service.sockets := by
  refine ⟨fun hub uses others h => ?_, RingHub.record_new, fun capacity uses others h => ?_,
    fun service happenings others h => ?_, fun options interval script => ?_⟩
  · obtain ⟨haudible, halike⟩ := Hub.audible_record h
    exact ⟨haudible, halike.receivers⟩
  · rw [RingHub.record_new, RingHub.record_new]
    exact (Hub.audible_record h).1
  · obtain ⟨hseen, halike⟩ := Service.seen_record h
    exact ⟨hseen, halike.sockets⟩
  · obtain ⟨hseen, halike⟩ := @Service.Server.play_alike (.start options)
      (.start { options with interval }) (Service.Alike.refl _) script
    exact ⟨hseen, halike.sockets⟩

/-- A channel that is forgotten between two subscriptions, with a payload that only the first could
read. -/
def reopening : List Hub.Use :=
  [.operate (.subscribe "sign:a"), .operate (.publish "sign:a" "x"), .operate (.drop 0),
    .operate .prune, .countChannels, .operate (.subscribe "sign:a"),
    .operate (.publish "sign:a" "y"), .operate (.receive 1), .countSubscribers "sign:a"]

/-- With its prune and without, what the history finds differs in the number of channels only. In a
hub of rings the second subscription reads another ring after the prune, and without it the one that
still holds the first payload. -/
theorem pruning_unobservable_of_reopening :
    Hub.audible (Hub.standard.record reopening).1 =
        Hub.audible (Hub.standard.record (reopening.filter (!·.isPrune))).1 ∧
      (.operate (.receive 1), .answer (.read (.payload "y"))) ∈
        Hub.audible (Hub.standard.record reopening).1 ∧
      (.countChannels, .count 0) ∈ (Hub.standard.record reopening).1 ∧
      (.countChannels, .count 1) ∈ (Hub.standard.record (reopening.filter (!·.isPrune))).1 ∧
      Hub.audible ((RingHub.new 2).record reopening).1 =
        Hub.audible ((RingHub.new 2).record (reopening.filter (!·.isPrune))).1 ∧
      ((RingHub.new 2).record reopening).2.rings = [⟨["x", ""], 1⟩, ⟨["y", ""], 1⟩] ∧
      ((RingHub.new 2).record (reopening.filter (!·.isPrune))).2.rings = [⟨["x", "y"], 2⟩] ∧
      Service.seen ((Service.new .standard).record [.connect "/v1/subscribe/sign:a", .sweep]).1 =
        Service.seen ((Service.new .standard).record [.connect "/v1/subscribe/sign:a"]).1 :=
  ⟨(pruning_unobservable.1 .standard reopening (reopening.filter (!·.isPrune)) (by decide)).1,
    by decide, by decide, by decide,
    pruning_unobservable.2.2.1 2 reopening (reopening.filter (!·.isPrune)) (by decide),
    by decide, by decide,
    (pruning_unobservable.2.2.2.1 (.new .standard) [.connect "/v1/subscribe/sign:a", .sweep]
      [.connect "/v1/subscribe/sign:a"] rfl).1⟩

end Custody
