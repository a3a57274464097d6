import Custody.Proofs.Hub.Pruning
import Custody.Proofs.Hub.Ring
/-!
# Hubs that keep payloads in rings

A hub gives every receiver its own list of unread payloads. It can also be kept the way it is laid
out in memory (`RingHub`): each tracked channel has a ring, into which a payload is written once for
all who listen, and a listener is no more than a position in a ring. A ring lasts as long as its
channel is tracked or somebody reads it. A channel that is forgotten and opened again gets an empty
ring, one that has stayed keeps what was written before, and nobody can tell the two apart: what a
ring hub answers is what the hub answers that is read off it.

* `RingHub.toHub`: the hub that is read off a ring hub.
* `RingHub.Sound`: no two channels are tracked under one name, and a listener whose ring is that of
  a tracked channel listens on that channel.
* `RingHub.Sound.apply`: one operation, done in both.
* `RingHub.record_new`: a whole history.
-/

namespace Custody

/-- One who reads a ring. -/
structure Listener where
  id : ReceiverId
  channel : String
  /-- The number of the ring. -/
  ring : Nat
  /-- The number of the payload that comes next. -/
  position : Nat
  deriving DecidableEq, Repr

/-- A hub as it is laid out in memory. -/
structure RingHub where
  capacity : Nat
  /-- The tracked channels, each with the number of its ring. -/
  tracked : List (String × Nat)
  /-- All rings there have been. -/
  rings : List Ring
  listeners : List Listener
  next : ReceiverId
  deriving DecidableEq, Repr

namespace RingHub

/-! ## Operations -/

/-- A hub without channels. -/
def new (capacity : Nat) : RingHub where
  capacity := Hub.powerAtLeast capacity
  tracked := []
  rings := []
  listeners := []
  next := 0

/-- The ring with a number. -/
def ring (hub : RingHub) (number : Nat) : Ring :=
  hub.rings.getD number (.new hub.capacity)

/-- The number of the ring of a tracked channel. -/
def number? (hub : RingHub) (channel : String) : Option Nat :=
  (hub.tracked.find? (·.1 == channel)).map Prod.snd

/-- How many read a ring. -/
def readers (hub : RingHub) (number : Nat) : Nat :=
  hub.listeners.countP (·.ring == number)

def subscriberCount (hub : RingHub) (channel : String) : Nat :=
  match hub.number? channel with
  | some number => hub.readers number
  | none => 0

def channelCount (hub : RingHub) : Nat :=
  hub.tracked.length

/-- Tracks a channel with an empty ring. -/
def track (hub : RingHub) (channel : String) : RingHub :=
  { hub with
    tracked := hub.tracked ++ [(channel, hub.rings.length)]
    rings := hub.rings ++ [.new hub.capacity] }

/-- The number of a channel's ring, and the hub in which the channel is tracked. -/
def openChannel (hub : RingHub) (channel : String) : Nat × RingHub :=
  match hub.number? channel with
  | some number => (number, hub)
  | none => (hub.rings.length, hub.track channel)

/-- Attaches a listener to a ring, behind all that has been written. -/
def attach (hub : RingHub) (channel : String) (number : Nat) : RingHub :=
  { hub with
    listeners := hub.listeners ++ [⟨hub.next, channel, number, (hub.ring number).written⟩]
    next := hub.next + 1 }

/-- Attaches a listener to the ring of a channel and gives its number. -/
def subscribe (hub : RingHub) (channel : String) : Except BrokerError (ReceiverId × RingHub) :=
  match ChannelName.fault? channel with
  | some fault => .error (.ofFault fault)
  | none =>
    .ok (hub.next, (hub.openChannel channel).2.attach channel (hub.openChannel channel).1)

/-- Writes a payload into the ring of a channel, unless nobody reads it. -/
def publish (hub : RingHub) (channel payload : String) : Except BrokerError (Nat × RingHub) :=
  match ChannelName.fault? channel with
  | some fault => .error (.ofFault fault)
  | none =>
    match hub.number? channel with
    | none => .ok (0, hub)
    | some number =>
      if hub.readers number = 0 then .ok (0, hub)
      else
        .ok (hub.readers number,
          { hub with rings := hub.rings.set number ((hub.ring number).write payload) })

/-- The ring of the listener is that of a tracked channel. -/
def isOpen (hub : RingHub) (listener : Listener) : Bool :=
  hub.tracked.any (·.2 == listener.ring)

/-- What a listener finds in its ring, and the listener after that. -/
def read (hub : RingHub) (listener : Listener) : Reading × Listener :=
  match (hub.ring listener.ring).read listener.position with
  | some (payload, position) => (.payload payload, { listener with position })
  | none => (if hub.isOpen listener then .nothing else .ended, listener)

def receive (hub : RingHub) (id : ReceiverId) : Reading × RingHub :=
  match hub.listeners.find? (·.id == id) with
  | none => (.ended, hub)
  | some listener =>
    ((hub.read listener).1,
      { hub with
        listeners := hub.listeners.map fun l => if l.id = id then (hub.read l).2 else l })

def drop (hub : RingHub) (id : ReceiverId) : Bool × RingHub :=
  (hub.listeners.any (·.id == id),
    { hub with listeners := hub.listeners.filter fun l => l.id ≠ id })

def close (hub : RingHub) (channel : String) : Bool × RingHub :=
  ((hub.number? channel).isSome,
    { hub with tracked := hub.tracked.filter fun entry => entry.1 ≠ channel })

/-- Forgets the channels whose rings nobody reads. -/
def prune (hub : RingHub) : Nat × RingHub :=
  let kept := hub.tracked.filter fun entry => 0 < hub.readers entry.2
  (hub.tracked.length - kept.length, { hub with tracked := kept })

/-- Does an operation. One that is refused changes nothing. -/
def apply (hub : RingHub) : Hub.Operation → Hub.Answer × RingHub
  | .subscribe channel =>
    match hub.subscribe channel with
    | .ok (id, hub) => (.subscribed id, hub)
    | .error e => (.refused e, hub)
  | .publish channel payload =>
    match hub.publish channel payload with
    | .ok (count, hub) => (.published count, hub)
    | .error e => (.refused e, hub)
  | .receive id => (.read (hub.receive id).1, (hub.receive id).2)
  | .drop id => (.dropped (hub.drop id).1, (hub.drop id).2)
  | .close channel => (.closed (hub.close channel).1, (hub.close channel).2)
  | .prune => (.pruned hub.prune.1, hub.prune.2)

/-- What a use finds, and the hub after it. -/
def use (hub : RingHub) : Hub.Use → Hub.Finding × RingHub
  | .operate op => (.answer (hub.apply op).1, (hub.apply op).2)
  | .countSubscribers channel => (.count (hub.subscriberCount channel), hub)
  | .countChannels => (.count hub.channelCount, hub)

/-- The uses of a hub in order, each with what it finds, and the hub after them. -/
def record (hub : RingHub) : List Hub.Use → List (Hub.Use × Hub.Finding) × RingHub
  | [] => ([], hub)
  | use :: rest =>
    let (finding, hub) := hub.use use
    let (entries, hub) := hub.record rest
    ((use, finding) :: entries, hub)

/-! ## The hub that is read off -/

/-- A listener as a receiver. -/
def receiver (hub : RingHub) (listener : Listener) : Receiver where
  id := listener.id
  channel := listener.channel
  pending := (hub.ring listener.ring).unread listener.position
  isOpen := hub.isOpen listener

/-- The hub that is read off a ring hub. -/
def toHub (hub : RingHub) : Hub where
  capacity := hub.capacity
  channels := hub.tracked.map Prod.fst
  receivers := hub.listeners.map hub.receiver
  next := hub.next

/-- Nobody reads on a tracked channel but those who listen on it. -/
structure Sound (hub : RingHub) : Prop where
  capacity_pos : 0 < hub.capacity
  nodup : (hub.tracked.map Prod.fst).Nodup
  own_ring : ∀ entry ∈ hub.tracked, ∀ other ∈ hub.tracked, entry.2 = other.2 → entry.1 = other.1
  slots : ∀ ring ∈ hub.rings, ring.slots.length = hub.capacity
  tracked_lt : ∀ entry ∈ hub.tracked, entry.2 < hub.rings.length
  ring_lt : ∀ l ∈ hub.listeners, l.ring < hub.rings.length
  position_le : ∀ l ∈ hub.listeners, l.position ≤ (hub.ring l.ring).written
  channel_eq : ∀ l ∈ hub.listeners, ∀ entry ∈ hub.tracked, entry.2 = l.ring → entry.1 = l.channel

variable {hub : RingHub}

theorem Sound.slots_ring (hs : hub.Sound) (number : Nat) :
    (hub.ring number).slots.length = hub.capacity := by
  unfold ring
  cases h : hub.rings[number]? with
  | none => simp [h, Ring.new]
  | some ring => simpa [h] using hs.slots ring (List.mem_of_getElem? h)

/-- The ring of a tracked channel is found by its name. -/
theorem Sound.number?_eq_some_iff (hs : hub.Sound) {channel : String} {number : Nat} :
    hub.number? channel = some number ↔ (channel, number) ∈ hub.tracked := by
  rw [number?, Option.map_eq_some_iff]
  constructor
  · rintro ⟨entry, hfind, rfl⟩
    have hname : entry.1 = channel := by simpa using List.find?_some hfind
    rw [← hname]
    exact List.mem_of_find?_eq_some hfind
  · intro hmem
    obtain ⟨entry, hentry⟩ : ∃ entry, hub.tracked.find? (·.1 == channel) = some entry :=
      Option.isSome_iff_exists.1 (List.find?_isSome.2 ⟨_, hmem, by simp⟩)
    have hname : entry.1 = channel := by simpa using List.find?_some hentry
    have hsame := List.inj_on_of_nodup_map hs.nodup (List.mem_of_find?_eq_some hentry) hmem hname
    exact ⟨entry, hentry, congrArg Prod.snd hsame⟩

theorem number?_eq_none_iff {channel : String} :
    hub.number? channel = none ↔ ∀ entry ∈ hub.tracked, entry.1 ≠ channel := by
  simp [number?]

theorem isOpen_iff {listener : Listener} :
    hub.isOpen listener = true ↔ ∃ entry ∈ hub.tracked, entry.2 = listener.ring := by
  simp [isOpen]

/-- **Those who listen on a tracked channel read its ring**, and nobody else does. -/
theorem Sound.listensOn_iff (hs : hub.Sound) {listener : Listener} (hl : listener ∈ hub.listeners)
    {channel : String} :
    (hub.receiver listener).listensOn channel = true ↔
      hub.number? channel = some listener.ring := by
  rw [hs.number?_eq_some_iff]
  simp only [Receiver.listensOn, receiver, Bool.and_eq_true, isOpen_iff, beq_iff_eq]
  constructor
  · rintro ⟨⟨⟨name, number⟩, hentry, rfl⟩, rfl⟩
    rwa [← hs.channel_eq listener hl _ hentry rfl]
  · intro hmem
    exact ⟨⟨_, hmem, rfl⟩, (hs.channel_eq listener hl _ hmem rfl).symm⟩

theorem Sound.subscriberCount_toHub (hs : hub.Sound) (channel : String) :
    hub.toHub.subscriberCount channel = hub.subscriberCount channel := by
  rw [Hub.subscriberCount, toHub, List.countP_map, subscriberCount]
  cases hn : hub.number? channel with
  | none =>
    refine List.countP_eq_zero.2 fun l hl hlistens => ?_
    rw [Function.comp_apply, hs.listensOn_iff hl, hn] at hlistens
    cases hlistens
  | some number =>
    refine List.countP_congr fun l hl => ?_
    rw [Function.comp_apply, hs.listensOn_iff hl, hn, Option.some_inj, beq_iff_eq]
    exact eq_comm

/-! ## One operation in both -/

theorem toHub_eq {other : Hub} (hcapacity : hub.capacity = other.capacity)
    (hchannels : hub.tracked.map Prod.fst = other.channels)
    (hreceivers : hub.listeners.map hub.receiver = other.receivers)
    (hnext : hub.next = other.next) : hub.toHub = other := by
  rw [toHub, hcapacity, hchannels, hreceivers, hnext]

theorem receiver_congr {later : RingHub} {listener : Listener}
    (hring : later.ring listener.ring = hub.ring listener.ring)
    (hopen : later.isOpen listener = hub.isOpen listener) :
    later.receiver listener = hub.receiver listener := by
  rw [receiver, receiver, hring, hopen]

/-- **One who is attached to a ring** finds nothing that has been written before. -/
theorem Sound.attach (hs : hub.Sound) {channel : String} {number : Nat}
    (hmem : (channel, number) ∈ hub.tracked) :
    (hub.attach channel number).Sound ∧
      (hub.attach channel number).toHub = { hub.toHub with
        receivers := hub.toHub.receivers ++ [⟨hub.next, channel, [], true⟩]
        next := hub.next + 1 } := by
  have hall {P : Listener → Prop} (hold : ∀ l ∈ hub.listeners, P l)
      (hnew : P ⟨hub.next, channel, number, (hub.ring number).written⟩) :
      ∀ l ∈ (hub.attach channel number).listeners, P l :=
    List.forall_mem_append.2 ⟨hold, List.forall_mem_singleton.2 hnew⟩
  refine ⟨{ hs with
    ring_lt := hall hs.ring_lt (hs.tracked_lt _ hmem)
    position_le := hall hs.position_le (Nat.le_refl _)
    channel_eq := hall hs.channel_eq fun entry hentry heq =>
      hs.own_ring entry hentry _ hmem heq }, toHub_eq rfl rfl ?_ rfl⟩
  have hnew : hub.receiver ⟨hub.next, channel, number, (hub.ring number).written⟩ =
      ⟨hub.next, channel, [], true⟩ := by
    rw [receiver, Ring.unread_of_le (Nat.le_refl _), isOpen_iff.2 ⟨_, hmem, rfl⟩]
  have hreceivers : (hub.attach channel number).listeners.map hub.receiver =
      hub.toHub.receivers ++ [⟨hub.next, channel, [], true⟩] := by
    rw [RingHub.attach, List.map_append, List.map_singleton, hnew]
    rfl
  exact hreceivers

/-- **A channel that is tracked from now on** has a ring that nobody reads. -/
theorem Sound.track (hs : hub.Sound) {channel : String} (hnew : channel ∉ hub.toHub.channels) :
    (hub.track channel).Sound ∧ (hub.track channel).toHub =
      { hub.toHub with channels := hub.toHub.channels ++ [channel] } := by
  have hlt {number : Nat} (h : number < hub.rings.length) :
      number < (hub.track channel).rings.length :=
    Nat.lt_of_lt_of_le h (by simp [RingHub.track])
  have hring {number : Nat} (h : number < hub.rings.length) :
      (hub.track channel).ring number = hub.ring number := by
    simp only [ring, RingHub.track, List.getD_eq_getElem?_getD, List.getElem?_append_left h]
  have hall {P : String × Nat → Prop} (hold : ∀ entry ∈ hub.tracked, P entry)
      (hlast : P (channel, hub.rings.length)) : ∀ entry ∈ (hub.track channel).tracked, P entry :=
    List.forall_mem_append.2 ⟨hold, List.forall_mem_singleton.2 hlast⟩
  have hnames : (hub.track channel).tracked.map Prod.fst = hub.toHub.channels ++ [channel] :=
    List.map_append
  refine ⟨{
    capacity_pos := hs.capacity_pos
    nodup := by
      rw [hnames, ← List.concat_eq_append]
      exact List.Nodup.concat hnew hs.nodup
    own_ring := hall
      (fun entry hentry => hall (hs.own_ring entry hentry) fun heq =>
        absurd heq (Nat.ne_of_lt (hs.tracked_lt entry hentry)))
      (hall (fun entry hentry heq => absurd heq (Nat.ne_of_gt (hs.tracked_lt entry hentry)))
        fun _ => rfl)
    slots := List.forall_mem_append.2 ⟨hs.slots, by simp [Ring.new, RingHub.track]⟩
    tracked_lt := hall (fun entry hentry => hlt (hs.tracked_lt entry hentry))
      (by simp [RingHub.track])
    ring_lt := fun l hl => hlt (hs.ring_lt l hl)
    position_le := fun l hl => by
      rw [hring (hs.ring_lt l hl)]
      exact hs.position_le l hl
    channel_eq := fun l hl => hall (hs.channel_eq l hl) fun heq =>
      absurd heq (Nat.ne_of_gt (hs.ring_lt l hl)) },
    toHub_eq rfl hnames (List.map_congr_left fun l hl => ?_) rfl⟩
  have hother : (hub.rings.length == l.ring) = false :=
    beq_false_of_ne (Nat.ne_of_gt (hs.ring_lt l hl))
  exact receiver_congr (hring (hs.ring_lt l hl)) (by simp [isOpen, RingHub.track, hother])

/-- A channel is opened by being tracked, if it is not yet. -/
theorem Sound.openChannel (hs : hub.Sound) (channel : String) :
    (hub.openChannel channel).2.Sound ∧
      (channel, (hub.openChannel channel).1) ∈ (hub.openChannel channel).2.tracked ∧
      (hub.openChannel channel).2.toHub = { hub.toHub with
        channels := if channel ∈ hub.toHub.channels then hub.toHub.channels
          else hub.toHub.channels ++ [channel] } := by
  unfold RingHub.openChannel
  cases hn : hub.number? channel with
  | some number =>
    have hmem := hs.number?_eq_some_iff.1 hn
    have hknown : channel ∈ hub.toHub.channels := List.mem_map_of_mem hmem
    exact ⟨hs, hmem, by rw [if_pos hknown]⟩
  | none =>
    have hnew : channel ∉ hub.toHub.channels := fun hmem => by
      obtain ⟨entry, hentry, hname⟩ := List.mem_map.1 hmem
      exact number?_eq_none_iff.1 hn entry hentry hname
    obtain ⟨hsound, htoHub⟩ := hs.track hnew
    exact ⟨hsound, List.mem_append_right _ (List.mem_singleton.2 rfl), by rw [htoHub, if_neg hnew]⟩

/-- **A subscription is one to the hub that is read off.** -/
theorem Sound.subscribe (hs : hub.Sound) (channel : String) :
    (∃ e, hub.subscribe channel = .error e ∧ hub.toHub.subscribe channel = .error e) ∨
      ∃ id later, hub.subscribe channel = .ok (id, later) ∧
        hub.toHub.subscribe channel = .ok (id, later.toHub) ∧ later.Sound := by
  unfold RingHub.subscribe Hub.subscribe
  cases ChannelName.fault? channel with
  | some fault => exact .inl ⟨_, rfl, rfl⟩
  | none =>
    obtain ⟨hopened, hmem, htoHub⟩ := hs.openChannel channel
    obtain ⟨hattached, hsame⟩ := hopened.attach hmem
    have hnext : (hub.openChannel channel).2.next = hub.next := congrArg Hub.next htoHub
    refine .inr ⟨_, _, rfl, ?_, hattached⟩
    rw [hsame, htoHub, hnext]
    rfl

/-- Nothing changes for a channel that nobody listens on. -/
theorem deliver_of_subscriberCount_eq_zero {other : Hub} {channel : String}
    (h : other.subscriberCount channel = 0) (payload : String) :
    (other.receivers.map fun r =>
      if r.listensOn channel then r.deliver other.capacity payload else r) = other.receivers := by
  refine (List.map_congr_left fun r hr => ?_).trans (List.map_id' other.receivers)
  rw [if_neg (List.countP_eq_zero.1 h r hr)]

/-- **A payload that is written into a ring** is delivered to those who read it. -/
theorem Sound.write (hs : hub.Sound) {channel : String} {number : Nat}
    (hmem : (channel, number) ∈ hub.tracked) (payload : String) :
    let later : RingHub :=
      { hub with rings := hub.rings.set number ((hub.ring number).write payload) }
    later.Sound ∧ later.toHub = { hub.toHub with
      receivers := hub.toHub.receivers.map fun r =>
        if r.listensOn channel then r.deliver hub.capacity payload else r } := by
  intro later
  have hslots := hs.slots_ring number
  have hlength : later.rings.length = hub.rings.length := List.length_set
  have hself : later.ring number = (hub.ring number).write payload := by
    simp [ring, later, hs.tracked_lt _ hmem]
  have hother {k : Nat} (hne : number ≠ k) : later.ring k = hub.ring k := by
    simp [ring, later, List.getElem?_set_ne hne]
  refine ⟨{ hs with
    slots := fun r hr => ?_
    tracked_lt := fun entry hentry => hlength ▸ hs.tracked_lt entry hentry
    ring_lt := fun l hl => hlength ▸ hs.ring_lt l hl
    position_le := fun l hl => ?_ }, toHub_eq rfl rfl ?_ rfl⟩
  · rcases List.mem_or_eq_of_mem_set hr with hr | rfl
    · exact hs.slots r hr
    · exact (Ring.length_slots_write ..).trans hslots
  · by_cases hne : number = l.ring
    · rw [← hne, hself]
      exact Nat.le_succ_of_le (hne ▸ hs.position_le l hl)
    · rw [hother hne]
      exact hs.position_le l hl
  · show hub.listeners.map later.receiver = (hub.listeners.map hub.receiver).map _
    rw [List.map_map]
    refine List.map_congr_left fun l hl => ?_
    have hlistens : (hub.receiver l).listensOn channel = true ↔ number = l.ring := by
      rw [hs.listensOn_iff hl, hs.number?_eq_some_iff.2 hmem, Option.some_inj]
    rw [Function.comp_apply]
    by_cases hne : number = l.ring
    · rw [if_pos (hlistens.2 hne), receiver, receiver, ← hne, hself,
        Ring.unread_write (hslots ▸ hs.capacity_pos) (hne ▸ hs.position_le l hl), hslots]
      rfl
    · rw [if_neg fun h => hne (hlistens.1 h)]
      exact receiver_congr (hother hne) rfl

theorem Sound.publish (hs : hub.Sound) (channel payload : String) :
    (∃ e, hub.publish channel payload = .error e ∧ hub.toHub.publish channel payload = .error e) ∨
      ∃ count later, hub.publish channel payload = .ok (count, later) ∧
        hub.toHub.publish channel payload = .ok (count, later.toHub) ∧ later.Sound := by
  have hcount := hs.subscriberCount_toHub channel
  -- where nobody listens, both stay as they are
  have hnobody (h : hub.subscriberCount channel = 0) :
      ({ hub.toHub with
        receivers := hub.toHub.receivers.map fun r =>
          if r.listensOn channel then r.deliver hub.toHub.capacity payload else r } : Hub) =
        hub.toHub := by
    rw [deliver_of_subscriberCount_eq_zero (hcount.trans h)]
  unfold RingHub.publish Hub.publish
  cases ChannelName.fault? channel with
  | some fault => exact .inl ⟨_, rfl, rfl⟩
  | none =>
    refine .inr ?_
    rw [hcount]
    unfold RingHub.subscriberCount at hnobody ⊢
    cases hn : hub.number? channel with
    | none =>
      rw [hn] at hnobody
      exact ⟨0, hub, rfl, by rw [hnobody rfl], hs⟩
    | some number =>
      rw [hn] at hnobody
      dsimp only at hnobody ⊢
      split
      · next h => exact ⟨0, hub, rfl, by rw [hnobody h, h], hs⟩
      · obtain ⟨hsound, htoHub⟩ := hs.write (hs.number?_eq_some_iff.1 hn) payload
        exact ⟨_, _, rfl, by rw [htoHub]; rfl, hsound⟩

/-- **One who reads a ring** finds what its receiver finds. -/
theorem Sound.read (hs : hub.Sound) (listener : Listener) :
    (hub.receiver listener).read =
      ((hub.read listener).1, hub.receiver (hub.read listener).2) := by
  have hread := @Ring.read_eq (hub.ring listener.ring) listener.position
    ((hs.slots_ring listener.ring).symm ▸ hs.capacity_pos)
  have hnext := (hub.ring listener.ring).unread_next listener.position
  unfold RingHub.read Receiver.read
  rw [hread]
  cases hunread : (hub.ring listener.ring).unread listener.position with
  | nil => simp [receiver, hunread]
  | cons payload rest =>
    rw [hunread, List.tail_cons] at hnext
    simp [receiver, hunread, hnext, isOpen]

/-- One who has read is at a position of the same ring. -/
theorem Sound.read_spec (hs : hub.Sound) {listener : Listener} (hl : listener ∈ hub.listeners) :
    (hub.read listener).2.ring = listener.ring ∧ (hub.read listener).2.channel = listener.channel ∧
      (hub.read listener).2.position ≤ (hub.ring listener.ring).written := by
  have hposition := hs.position_le listener hl
  unfold RingHub.read Ring.read
  split
  · next payload position h =>
    split at h
    · next hlt =>
      obtain ⟨-, rfl⟩ := Prod.mk.inj (Option.some.inj h)
      refine ⟨rfl, rfl, ?_⟩
      show (hub.ring listener.ring).next listener.position + 1 ≤ _
      have hpos := hs.capacity_pos
      have hslots := hs.slots_ring listener.ring
      unfold Ring.next
      omega
    · cases h
  · exact ⟨rfl, rfl, hposition⟩

theorem Sound.receive (hs : hub.Sound) (id : ReceiverId) :
    hub.toHub.receive id = ((hub.receive id).1, (hub.receive id).2.toHub) ∧
      (hub.receive id).2.Sound := by
  have hfind : hub.toHub.receivers.find? (·.id == id) =
      (hub.listeners.find? (·.id == id)).map hub.receiver := by
    rw [toHub, List.find?_map]
    rfl
  unfold RingHub.receive Hub.receive
  rw [hfind]
  cases hub.listeners.find? (·.id == id) with
  | none => exact ⟨rfl, hs⟩
  | some listener =>
    have hall {P : Listener → Prop} (hold : ∀ l ∈ hub.listeners, P l)
        (hread : ∀ l ∈ hub.listeners, P (hub.read l).2) :
        ∀ l ∈ hub.listeners.map fun l => if l.id = id then (hub.read l).2 else l, P l := by
      refine List.forall_mem_map.2 fun l hl => ?_
      split
      · exact hread l hl
      · exact hold l hl
    dsimp only [Option.map_some]
    constructor
    · rw [hs.read listener]
      refine Prod.ext rfl (toHub_eq rfl rfl ?_ rfl).symm
      show (hub.listeners.map _).map hub.receiver = (hub.listeners.map hub.receiver).map _
      rw [List.map_map, List.map_map]
      refine List.map_congr_left fun l hl => ?_
      have hid : (hub.receiver l).id = l.id := rfl
      simp only [Function.comp_apply, hs.read l, hid]
      split <;> rfl
    · exact { hs with
        ring_lt := hall hs.ring_lt fun l hl => (hs.read_spec hl).1 ▸ hs.ring_lt l hl
        position_le := hall hs.position_le fun l hl => by
          show _ ≤ (hub.ring (hub.read l).2.ring).written
          rw [(hs.read_spec hl).1]
          exact (hs.read_spec hl).2.2
        channel_eq := hall hs.channel_eq fun l hl => by
          rw [(hs.read_spec hl).1, (hs.read_spec hl).2.1]
          exact hs.channel_eq l hl }

theorem Sound.drop (hs : hub.Sound) (id : ReceiverId) :
    hub.toHub.drop id = ((hub.drop id).1, (hub.drop id).2.toHub) ∧ (hub.drop id).2.Sound := by
  have hmem {l : Listener} (hl : l ∈ (hub.drop id).2.listeners) : l ∈ hub.listeners :=
    List.mem_of_mem_filter hl
  refine ⟨Prod.ext ?_ (toHub_eq rfl rfl ?_ rfl).symm, { hs with
    ring_lt := fun l hl => hs.ring_lt l (hmem hl)
    position_le := fun l hl => hs.position_le l (hmem hl)
    channel_eq := fun l hl => hs.channel_eq l (hmem hl) }⟩
  · simp [Hub.drop, RingHub.drop, toHub, receiver, List.any_map, Function.comp_def]
  · simp only [Hub.drop, toHub, List.filter_map]
    rfl

/-- The hub in which only some of the channels are tracked. -/
def keep (hub : RingHub) (kept : String × Nat → Bool) : RingHub :=
  { hub with tracked := hub.tracked.filter kept }

theorem Sound.keep (hs : hub.Sound) (kept : String × Nat → Bool) : (hub.keep kept).Sound :=
  have hmem {entry : String × Nat} (h : entry ∈ hub.tracked.filter kept) : entry ∈ hub.tracked :=
    List.mem_of_mem_filter h
  { hs with
    nodup := hs.nodup.sublist (List.filter_sublist.map _)
    own_ring := fun entry hentry other hother => hs.own_ring entry (hmem hentry) other (hmem hother)
    tracked_lt := fun entry hentry => hs.tracked_lt entry (hmem hentry)
    channel_eq := fun l hl entry hentry => hs.channel_eq l hl entry (hmem hentry) }

theorem isOpen_keep_iff {kept : String × Nat → Bool} {listener : Listener} :
    (hub.keep kept).isOpen listener = true ↔
      ∃ entry ∈ hub.tracked, kept entry = true ∧ entry.2 = listener.ring := by
  simp [isOpen_iff, keep, and_assoc]

/-- **A channel that is closed** is forgotten, and those who read its ring find its end. -/
theorem Sound.close (hs : hub.Sound) (channel : String) :
    hub.toHub.close channel = ((hub.close channel).1, (hub.close channel).2.toHub) ∧
      (hub.close channel).2.Sound := by
  refine ⟨Prod.ext ?_ (toHub_eq rfl ?_ ?_ rfl).symm, hs.keep _⟩
  · rw [Bool.eq_iff_iff]
    simp [Hub.close, RingHub.close, toHub, number?]
  · simp [Hub.close, RingHub.close, toHub, List.filter_map, Function.comp_def]
  · show hub.listeners.map (hub.close channel).2.receiver = (hub.listeners.map hub.receiver).map _
    rw [List.map_map]
    refine List.map_congr_left fun l hl => ?_
    have hchannel : (hub.receiver l).channel = l.channel := rfl
    have hopen : (hub.close channel).2.isOpen l = true ↔
        ∃ entry ∈ hub.tracked, entry.1 ≠ channel ∧ entry.2 = l.ring :=
      isOpen_keep_iff.trans (by simp only [decide_eq_true_eq])
    rw [Function.comp_apply, hchannel]
    by_cases hc : l.channel = channel
    · have hended : (hub.close channel).2.isOpen l = false := by
        rw [Bool.eq_false_iff, Ne, hopen]
        rintro ⟨entry, hentry, hne, heq⟩
        exact hne ((hs.channel_eq l hl entry hentry heq).trans hc)
      rw [if_pos hc, receiver, hended]
      rfl
    · rw [if_neg hc]
      refine receiver_congr rfl (Bool.eq_iff_iff.2 ?_)
      rw [hopen, isOpen_iff]
      constructor
      · rintro ⟨entry, hentry, -, heq⟩
        exact ⟨entry, hentry, heq⟩
      · rintro ⟨entry, hentry, heq⟩
        exact ⟨entry, hentry, hs.channel_eq l hl entry hentry heq ▸ hc, heq⟩

/-- **A prune forgets only rings that nobody reads**, so that no listener finds its end by it. -/
theorem Sound.prune (hs : hub.Sound) :
    hub.toHub.prune = (hub.prune.1, hub.prune.2.toHub) ∧ hub.prune.2.Sound := by
  have hchannels : hub.toHub.channels.filter (fun name => 0 < hub.toHub.subscriberCount name) =
      (hub.tracked.filter fun entry => 0 < hub.readers entry.2).map Prod.fst := by
    rw [toHub, List.filter_map]
    refine congrArg (List.map Prod.fst) (List.filter_congr fun entry hentry => ?_)
    have hcount := hs.subscriberCount_toHub entry.1
    rw [subscriberCount, hs.number?_eq_some_iff.2 hentry] at hcount
    exact congrArg (fun n => decide (0 < n)) hcount
  refine ⟨Prod.ext ?_ (toHub_eq rfl hchannels.symm ?_ rfl).symm, hs.keep _⟩
  · simp only [Hub.prune, RingHub.prune, hchannels, List.length_map]
    rw [toHub, List.length_map]
  · refine List.map_congr_left fun l hl => receiver_congr rfl (Bool.eq_iff_iff.2 ?_)
    refine isOpen_keep_iff.trans (Iff.trans ?_ isOpen_iff.symm)
    constructor
    · rintro ⟨entry, hentry, -, heq⟩
      exact ⟨entry, hentry, heq⟩
    · rintro ⟨entry, hentry, heq⟩
      -- the listener itself reads the ring
      have hread : 0 < hub.readers entry.2 := List.countP_pos_iff.2 ⟨l, hl, by simp [heq]⟩
      exact ⟨entry, hentry, decide_eq_true hread, heq⟩

/-! ## Histories -/

/-- **A ring hub answers every operation as the hub does that is read off it.** -/
theorem Sound.apply (hs : hub.Sound) (op : Hub.Operation) :
    hub.toHub.apply op = ((hub.apply op).1, (hub.apply op).2.toHub) ∧ (hub.apply op).2.Sound := by
  cases op with
  | subscribe channel =>
    rcases hs.subscribe channel with ⟨e, he, he'⟩ | ⟨id, later, hok, hok', hsound⟩
    · simp only [RingHub.apply, Hub.apply, he, he']
      exact ⟨trivial, hs⟩
    · simp only [RingHub.apply, Hub.apply, hok, hok']
      exact ⟨trivial, hsound⟩
  | publish channel payload =>
    rcases hs.publish channel payload with ⟨e, he, he'⟩ | ⟨count, later, hok, hok', hsound⟩
    · simp only [RingHub.apply, Hub.apply, he, he']
      exact ⟨trivial, hs⟩
    · simp only [RingHub.apply, Hub.apply, hok, hok']
      exact ⟨trivial, hsound⟩
  | receive id =>
    obtain ⟨hsame, hsound⟩ := hs.receive id
    exact ⟨by rw [Hub.apply, hsame]; rfl, hsound⟩
  | drop id =>
    obtain ⟨hsame, hsound⟩ := hs.drop id
    exact ⟨by rw [Hub.apply, hsame]; rfl, hsound⟩
  | close channel =>
    obtain ⟨hsame, hsound⟩ := hs.close channel
    exact ⟨by rw [Hub.apply, hsame]; rfl, hsound⟩
  | prune =>
    obtain ⟨hsame, hsound⟩ := hs.prune
    exact ⟨by rw [Hub.apply, hsame]; rfl, hsound⟩

theorem Sound.use (hs : hub.Sound) (use : Hub.Use) :
    hub.toHub.use use = ((hub.use use).1, (hub.use use).2.toHub) ∧ (hub.use use).2.Sound := by
  cases use with
  | operate op =>
    obtain ⟨hsame, hsound⟩ := hs.apply op
    exact ⟨by rw [Hub.use, hsame]; rfl, hsound⟩
  | countSubscribers channel =>
    exact ⟨by rw [Hub.use, hs.subscriberCount_toHub]; rfl, hs⟩
  | countChannels =>
    have hcount : hub.toHub.channelCount = hub.channelCount := List.length_map _
    exact ⟨by rw [Hub.use, hcount]; rfl, hs⟩

theorem Sound.record (hs : hub.Sound) (uses : List Hub.Use) :
    hub.toHub.record uses = ((hub.record uses).1, (hub.record uses).2.toHub) ∧
      (hub.record uses).2.Sound := by
  induction uses generalizing hub with
  | nil => exact ⟨rfl, hs⟩
  | cons use rest ih =>
    obtain ⟨hsame, hsound⟩ := hs.use use
    obtain ⟨hrest, hlast⟩ := ih hsound
    exact ⟨by simp only [Hub.record, hsame, hrest, RingHub.record], hlast⟩

theorem powerAtLeast_pos (k : Nat) : 0 < Hub.powerAtLeast k := by
  unfold Hub.powerAtLeast
  split
  · exact Nat.one_pos
  · rw [Nat.one_shiftLeft]
    exact Nat.two_pow_pos _

theorem sound_new (capacity : Nat) : (new capacity).Sound where
  capacity_pos := powerAtLeast_pos capacity
  nodup := .nil
  own_ring := List.forall_mem_nil _
  slots := List.forall_mem_nil _
  tracked_lt := List.forall_mem_nil _
  ring_lt := List.forall_mem_nil _
  position_le := List.forall_mem_nil _
  channel_eq := List.forall_mem_nil _

/-- **A hub whose channels are rings finds what the hub finds.** -/
theorem record_new (capacity : Nat) (uses : List Hub.Use) :
    ((new capacity).record uses).1 = ((Hub.new capacity).record uses).1 :=
  (congrArg Prod.fst ((sound_new capacity).record uses).1).symm

end RingHub

end Custody
