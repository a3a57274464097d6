import Custody.Hub.Basic
import Mathlib.Data.List.Nodup
/-!
# The receivers of a hub

What an operation does to a receiver does not depend on the other receivers: `Receiver.after?` says
what becomes of one, and `Hub.receivers_apply` that this, and those who are newly attached, is all
that happens to the receivers of a hub.

* `Hub.Sound`: receivers have different numbers below the next one, and listen on channels that can
  be subscribed to. All hubs that arise by operations are sound (`Hub.sound_run`).
* `Hub.receiver?_apply`, `Hub.receiver?_subscribe`: a receiver after an operation.
* `Hub.subscriberCount_apply`: how many receivers are attached to a channel after an operation. The
  number changes only by operations that touch the channel (`Hub.Touches`).
-/

namespace Custody

/-- The payload that was found. -/
def Reading.payload? : Reading → Option String
  | .payload text => some text
  | .nothing => none
  | .ended => none

/-! ## One receiver -/

namespace Receiver

/-- What becomes of a receiver by an operation, in a hub whose receivers keep `capacity` payloads.
Of one that is dropped nothing is left. -/
def after? (capacity : Nat) (receiver : Receiver) : Hub.Operation → Option Receiver
  | .publish channel payload =>
    some (if receiver.listensOn channel then receiver.deliver capacity payload else receiver)
  | .receive id => some (if receiver.id = id then receiver.read.2 else receiver)
  | .drop id => if receiver.id = id then none else some receiver
  | .close channel =>
    some (if receiver.channel = channel then { receiver with isOpen := false } else receiver)
  | .subscribe _ => some receiver
  | .prune => some receiver

theorem keepLast_suffix (capacity : Nat) (items : List String) :
    keepLast capacity items <:+ items :=
  List.drop_suffix ..

theorem length_keepLast (capacity : Nat) (items : List String) :
    (keepLast capacity items).length = min items.length capacity := by
  simp only [keepLast, List.length_drop]
  omega

theorem keepLast_of_length_le {capacity : Nat} {items : List String}
    (h : items.length ≤ capacity) : keepLast capacity items = items := by
  simp [keepLast, Nat.sub_eq_zero_of_le h]

@[simp] theorem deliver_id (receiver : Receiver) (capacity : Nat) (payload : String) :
    (receiver.deliver capacity payload).id = receiver.id :=
  rfl

@[simp] theorem deliver_channel (receiver : Receiver) (capacity : Nat) (payload : String) :
    (receiver.deliver capacity payload).channel = receiver.channel :=
  rfl

@[simp] theorem read_id (receiver : Receiver) : receiver.read.2.id = receiver.id := by
  unfold read
  split <;> rfl

@[simp] theorem read_channel (receiver : Receiver) :
    receiver.read.2.channel = receiver.channel := by
  unfold read
  split <;> rfl

@[simp] theorem read_isOpen (receiver : Receiver) : receiver.read.2.isOpen = receiver.isOpen := by
  unfold read
  split <;> rfl

@[simp] theorem read_pending (receiver : Receiver) :
    receiver.read.2.pending = receiver.pending.tail := by
  unfold read
  split <;> simp_all

/-- What a receiver finds is the first payload that it keeps, if it keeps any. -/
theorem read_fst (receiver : Receiver) :
    receiver.read.1 = receiver.pending.head?.elim
      (if receiver.isOpen then .nothing else .ended) .payload := by
  unfold read
  split <;> simp_all

theorem payload?_read (receiver : Receiver) :
    receiver.read.1.payload? = receiver.pending.head? := by
  rw [read_fst]
  cases receiver.pending with
  | nil => cases receiver.isOpen <;> rfl
  | cons payload rest => rfl

variable {capacity : Nat} {receiver next : Receiver} {op : Hub.Operation}

theorem after?_id (h : receiver.after? capacity op = some next) : next.id = receiver.id := by
  cases op <;> simp only [after?] at h <;> grind [deliver_id, read_id]

theorem after?_channel (h : receiver.after? capacity op = some next) :
    next.channel = receiver.channel := by
  cases op <;> simp only [after?] at h <;> grind [deliver_channel, read_channel]

end Receiver

namespace Hub

/-! ## Sound hubs -/

/-- The receiver with a number. -/
def receiver? (hub : Hub) (id : ReceiverId) : Option Receiver :=
  hub.receivers.find? (·.id == id)

/-- Receivers have different numbers, all below the next one, and listen on channels that can be
subscribed to. -/
structure Sound (hub : Hub) : Prop where
  distinct : hub.receivers.Pairwise fun r other => r.id ≠ other.id
  id_lt : ∀ r ∈ hub.receivers, r.id < hub.next
  valid : ∀ r ∈ hub.receivers, ChannelName.Valid r.channel

/-- The receivers that an operation attaches. -/
def attached (hub : Hub) : Operation → List Receiver
  | .subscribe channel =>
    if ChannelName.fault? channel = none then [⟨hub.next, channel, [], true⟩] else []
  | .publish _ _ | .receive _ | .drop _ | .close _ | .prune => []

variable {hub : Hub} {id : ReceiverId}

theorem mem_of_receiver? {r : Receiver} (h : hub.receiver? id = some r) : r ∈ hub.receivers :=
  List.mem_of_find?_eq_some h

theorem id_of_receiver? {r : Receiver} (h : hub.receiver? id = some r) : r.id = id := by
  simpa using List.find?_some h

theorem ne_of_receiver?_eq_none (h : hub.receiver? id = none) : ∀ r ∈ hub.receivers, r.id ≠ id := by
  simpa [receiver?] using h

/-- A channel that cannot be subscribed to has no listener. -/
theorem Sound.listensOn_eq_false (hs : hub.Sound) {channel : String} {fault : ChannelName.Fault}
    (h : ChannelName.fault? channel = some fault) :
    ∀ r ∈ hub.receivers, r.listensOn channel = false := by
  intro r hr
  have hv := ChannelName.fault?_eq_none_iff.2 (hs.valid r hr)
  by_contra hl
  have hc : r.channel = channel := by
    simp only [Receiver.listensOn, Bool.not_eq_false, Bool.and_eq_true, beq_iff_eq] at hl
    exact hl.2
  rw [hc, h] at hv
  cases hv

/-- **What happens to the receivers of a hub.** -/
theorem receivers_apply (hs : hub.Sound) (op : Operation) :
    (hub.apply op).2.receivers =
      hub.receivers.filterMap (·.after? hub.capacity op) ++ hub.attached op := by
  have hself (f : Receiver → Option Receiver) (h : ∀ r ∈ hub.receivers, f r = some r) :
      hub.receivers = hub.receivers.filterMap f := by
    rw [List.filterMap_congr h, List.filterMap_some]
  cases op with
  | subscribe channel =>
    cases hf : ChannelName.fault? channel with
    | none => simp [apply, subscribe, hf, Receiver.after?, attached]
    | some fault => simp [apply, subscribe, hf, Receiver.after?, attached]
  | publish channel payload =>
    rw [attached, List.append_nil]
    cases hf : ChannelName.fault? channel with
    | none => simp [apply, publish, hf, Receiver.after?]
    | some fault =>
      simp only [apply, publish, hf]
      exact hself _ fun r hr => by simp [Receiver.after?, hs.listensOn_eq_false hf r hr]
  | receive id =>
    rw [attached, List.append_nil]
    cases hr : hub.receivers.find? (·.id == id) with
    | none =>
      simp only [apply, receive, hr]
      exact hself _ fun r h => by simp [Receiver.after?, ne_of_receiver?_eq_none hr r h]
    | some r => simp [apply, receive, hr, Receiver.after?]
  | drop id =>
    rw [attached, List.append_nil]
    simp only [apply, drop]
    rw [← List.filterMap_eq_filter]
    exact List.filterMap_congr fun r _ => by
      by_cases h : r.id = id <;> simp [Option.guard, Receiver.after?, h]
  | close channel => simp [apply, close, Receiver.after?, attached]
  | prune => simp [apply, prune, Receiver.after?, attached]

/-- The capacity stays, and each new receiver takes a number. -/
theorem capacity_next_apply (hub : Hub) (op : Operation) :
    (hub.apply op).2.capacity = hub.capacity ∧
      (hub.apply op).2.next = hub.next + (hub.attached op).length := by
  cases op with
  | subscribe channel =>
    cases hf : ChannelName.fault? channel <;> simp [apply, subscribe, attached, hf]
  | publish channel payload =>
    cases hf : ChannelName.fault? channel <;> simp [apply, publish, attached, hf]
  | receive id =>
    cases hr : hub.receivers.find? (·.id == id) <;> simp [apply, receive, attached, hr]
  | drop id => simp [apply, drop, attached]
  | close channel => simp [apply, close, attached]
  | prune => simp [apply, prune, attached]

theorem mem_attached {op : Operation} {r : Receiver} (h : r ∈ hub.attached op) :
    ∃ channel, op = .subscribe channel ∧ ChannelName.fault? channel = none ∧
      r = ⟨hub.next, channel, [], true⟩ := by
  cases op with
  | subscribe channel =>
    simp only [attached] at h
    split at h
    · next hf => exact ⟨channel, rfl, hf, List.mem_singleton.1 h⟩
    · cases h
  | _ => cases h

theorem sound_new (capacity : Nat) : (new capacity).Sound :=
  ⟨.nil, by simp [new], by simp [new]⟩

/-- Operations keep a hub sound. -/
theorem Sound.apply (hs : hub.Sound) (op : Operation) : (hub.apply op).2.Sound := by
  have hr := receivers_apply hs op
  have hn := (hub.capacity_next_apply op).2
  -- those who stay have their numbers and channels
  have hstay : ∀ r ∈ hub.receivers.filterMap (·.after? hub.capacity op),
      r.id < hub.next ∧ ChannelName.Valid r.channel := by
    intro r h
    obtain ⟨old, hold, ha⟩ := List.mem_filterMap.1 h
    rw [Receiver.after?_id ha, Receiver.after?_channel ha]
    exact ⟨hs.id_lt old hold, hs.valid old hold⟩
  refine ⟨?_, ?_, ?_⟩
  · rw [hr, List.pairwise_append]
    refine ⟨?_, ?_, ?_⟩
    · refine hs.distinct.filterMap _ fun r other hne r' hr' other' hother' => ?_
      rwa [Receiver.after?_id hr', Receiver.after?_id hother']
    · cases op <;> simp only [attached] <;> first | exact .nil | (split <;> simp)
    · intro r h other hother
      obtain ⟨channel, -, -, rfl⟩ := mem_attached hother
      exact Nat.ne_of_lt (hstay r h).1
  · intro r h
    rw [hr, List.mem_append] at h
    rcases h with h | h
    · rw [hn]
      exact Nat.lt_add_right _ (hstay r h).1
    · obtain ⟨channel, rfl, hf, rfl⟩ := mem_attached h
      simp [hn, attached, hf]
  · intro r h
    rw [hr, List.mem_append] at h
    rcases h with h | h
    · exact (hstay r h).2
    · obtain ⟨channel, -, hf, rfl⟩ := mem_attached h
      exact ChannelName.fault?_eq_none_iff.1 hf

theorem run_cons (hub : Hub) (op : Operation) (rest : List Operation) :
    hub.run (op :: rest) =
      ((hub.apply op).1 :: ((hub.apply op).2.run rest).1, ((hub.apply op).2.run rest).2) :=
  rfl

theorem run_append (hub : Hub) (first second : List Operation) :
    hub.run (first ++ second) =
      ((hub.run first).1 ++ ((hub.run first).2.run second).1,
        ((hub.run first).2.run second).2) := by
  induction first generalizing hub with
  | nil => rfl
  | cons op rest ih => simp [run_cons, ih]

theorem run_snoc (hub : Hub) (past : List Operation) (op : Operation) :
    (hub.run (past ++ [op])).2 = ((hub.run past).2.apply op).2 := by
  rw [run_append]
  rfl

theorem sound_run (hs : hub.Sound) (ops : List Operation) : (hub.run ops).2.Sound := by
  induction ops generalizing hub with
  | nil => exact hs
  | cons op rest ih => exact ih (hs.apply op)

theorem capacity_run (hub : Hub) (ops : List Operation) :
    (hub.run ops).2.capacity = hub.capacity := by
  induction ops generalizing hub with
  | nil => rfl
  | cons op rest ih => rw [run_cons, ih, (hub.capacity_next_apply op).1]

/-! ## One receiver of a hub -/

/-- A number belongs to one receiver at most. -/
theorem Sound.eq_of_id (hs : hub.Sound) {r other : Receiver} (hr : r ∈ hub.receivers)
    (hother : other ∈ hub.receivers) (h : r.id = other.id) : r = other :=
  List.inj_on_of_nodup_map (List.pairwise_map.2 hs.distinct) hr hother h

theorem Sound.receiver?_eq_some_iff (hs : hub.Sound) {r : Receiver} :
    hub.receiver? id = some r ↔ r ∈ hub.receivers ∧ r.id = id := by
  constructor
  · exact fun h => ⟨mem_of_receiver? h, id_of_receiver? h⟩
  · rintro ⟨hr, rfl⟩
    cases h : hub.receiver? r.id with
    | none => exact absurd rfl (ne_of_receiver?_eq_none h r hr)
    | some other => rw [hs.eq_of_id (mem_of_receiver? h) hr (id_of_receiver? h)]

/-- **What becomes of a receiver by an operation.** -/
theorem receiver?_apply (hs : hub.Sound) (op : Operation) (hid : id < hub.next) :
    (hub.apply op).2.receiver? id = (hub.receiver? id).bind (·.after? hub.capacity op) := by
  ext next
  rw [(hs.apply op).receiver?_eq_some_iff, receivers_apply hs, List.mem_append,
    Option.bind_eq_some_iff]
  simp only [hs.receiver?_eq_some_iff, List.mem_filterMap]
  constructor
  · rintro ⟨⟨r, hr, ha⟩ | hnew, rfl⟩
    · exact ⟨r, ⟨hr, (Receiver.after?_id ha).symm⟩, ha⟩
    · obtain ⟨channel, -, -, rfl⟩ := mem_attached hnew
      exact absurd hid (Nat.lt_irrefl _)
  · rintro ⟨r, ⟨hr, rfl⟩, ha⟩
    exact ⟨.inl ⟨r, hr, ha⟩, Receiver.after?_id ha⟩

theorem receiver?_apply_of_receiver? (hs : hub.Sound) {r : Receiver}
    (hr : hub.receiver? id = some r) (op : Operation) :
    (hub.apply op).2.receiver? id = r.after? hub.capacity op := by
  have hid : id < hub.next := id_of_receiver? hr ▸ hs.id_lt r (mem_of_receiver? hr)
  rw [receiver?_apply hs op hid, hr, Option.bind_some]

/-- A receiver stays as it is while operations leave it as it is. -/
theorem receiver?_run_of_forall (hs : hub.Sound) {r : Receiver} (hr : hub.receiver? id = some r)
    {ops : List Operation} (h : ∀ op ∈ ops, r.after? hub.capacity op = some r) :
    (hub.run ops).2.receiver? id = some r := by
  induction ops generalizing hub with
  | nil => exact hr
  | cons op rest ih =>
    have hnext : (hub.apply op).2.receiver? id = some r := by
      rw [receiver?_apply_of_receiver? hs hr, h op List.mem_cons_self]
    have hcapacity := (hub.capacity_next_apply op).1
    rw [run_cons]
    refine ih (hs.apply op) hnext fun later hlater => ?_
    rw [hcapacity]
    exact h later (List.mem_cons_of_mem op hlater)

/-- A channel of a fit name can be subscribed to. -/
theorem exists_subscribe (hub : Hub) {channel : String} (h : ChannelName.Valid channel) :
    ∃ hub', hub.subscribe channel = .ok (hub.next, hub') := by
  unfold subscribe
  rw [ChannelName.fault?_eq_none_iff.2 h]
  exact ⟨_, rfl⟩

/-- A receiver that has just been attached has read nothing and can read nothing. -/
theorem receiver?_subscribe (hs : hub.Sound) {channel : String} {hub' : Hub}
    (h : hub.subscribe channel = .ok (id, hub')) :
    ChannelName.Valid channel ∧ id = hub.next ∧ hub' = (hub.apply (.subscribe channel)).2 ∧
      hub'.receiver? id = some ⟨id, channel, [], true⟩ := by
  have ha : (hub.apply (.subscribe channel)).2 = hub' := by simp only [apply, h]
  unfold subscribe at h
  split at h
  · cases h
  · next hf =>
    obtain ⟨rfl, hhub⟩ := Prod.mk.inj (Except.ok.inj h)
    refine ⟨ChannelName.fault?_eq_none_iff.1 hf, rfl, ha.symm, ?_⟩
    rw [← ha, (hs.apply _).receiver?_eq_some_iff, receivers_apply hs]
    simp [attached, hf]

/-- One who looks with a receiver finds what it finds. -/
theorem receive_eq {r : Receiver} (h : hub.receiver? id = some r) :
    hub.receive id = (r.read.1, (hub.apply (.receive id)).2) := by
  have hfind : hub.receivers.find? (·.id == id) = some r := h
  simp only [apply, receive, hfind]

/-- One who looks for a payload is answered what its receiver finds. -/
theorem answer_receive (hub : Hub) (id : ReceiverId) :
    (hub.apply (.receive id)).1 = .read ((hub.receiver? id).elim .ended (·.read.1)) := by
  simp only [apply, receive, receiver?]
  cases hub.receivers.find? (·.id == id) <;> rfl

/-! ## How many are attached -/

variable {channel : String}

/-- How many receivers are attached to a channel after an operation. -/
theorem subscriberCount_apply (hs : hub.Sound) (op : Operation) (channel : String) :
    (hub.apply op).2.subscriberCount channel =
      hub.receivers.countP (fun r => (r.after? hub.capacity op).any (·.listensOn channel)) +
        (hub.attached op).countP (·.listensOn channel) := by
  rw [subscriberCount, receivers_apply hs, List.countP_append, List.countP_filterMap]
  congr 2
  funext r
  cases r.after? hub.capacity op <;> rfl

/-- An operation touches a channel when it changes who is attached to it. -/
def Touches (hub : Hub) (channel : String) : Operation → Prop
  | .subscribe name => name = channel
  | .close name => name = channel
  | .drop id => ∃ r ∈ hub.receiver? id, r.channel = channel
  | .publish _ _ => False
  | .receive _ => False
  | .prune => False

instance (hub : Hub) (channel : String) : (op : Operation) → Decidable (hub.Touches channel op)
  | .subscribe name => inferInstanceAs (Decidable (name = channel))
  | .close name => inferInstanceAs (Decidable (name = channel))
  | .drop id => inferInstanceAs (Decidable (∃ r ∈ hub.receiver? id, r.channel = channel))
  | .publish _ _ | .receive _ | .prune => inferInstanceAs (Decidable False)

/-- One who listens on a channel goes on listening. -/
theorem listensOn_after? (hs : hub.Sound) {op : Operation} (h : ¬ hub.Touches channel op)
    {r : Receiver} (hr : r ∈ hub.receivers) :
    (r.after? hub.capacity op).any (·.listensOn channel) = r.listensOn channel := by
  cases op with
  | subscribe name => rfl
  | publish name payload =>
    simp only [Receiver.after?, Option.any_some]
    split <;> rfl
  | receive other =>
    simp only [Receiver.after?, Option.any_some]
    split <;> simp [Receiver.listensOn]
  | drop other =>
    by_cases ho : r.id = other
    · have hc : r.channel ≠ channel :=
        fun hc => h ⟨r, hs.receiver?_eq_some_iff.2 ⟨hr, ho⟩, hc⟩
      simp [Receiver.after?, Receiver.listensOn, ho, hc]
    · simp [Receiver.after?, ho]
  | close name =>
    by_cases hn : r.channel = name
    · have hc : r.channel ≠ channel := fun hc => h (hn.symm.trans hc)
      simp [Receiver.after?, Receiver.listensOn, hn, hn ▸ hc]
    · simp [Receiver.after?, hn]
  | prune => rfl

theorem subscriberCount_of_not_touches (hs : hub.Sound) {op : Operation}
    (h : ¬ hub.Touches channel op) :
    (hub.apply op).2.subscriberCount channel = hub.subscriberCount channel := by
  have hnew : (hub.attached op).countP (·.listensOn channel) = 0 := by
    rw [List.countP_eq_zero]
    intro r hr
    obtain ⟨name, rfl, -, rfl⟩ := mem_attached hr
    have hn : name ≠ channel := h
    simp [Receiver.listensOn, hn]
  rw [subscriberCount_apply hs, hnew, subscriberCount]
  exact List.countP_congr fun r hr => by rw [listensOn_after? hs h hr]

theorem subscriberCount_subscribe (hs : hub.Sound) (hv : ChannelName.Valid channel) :
    (hub.apply (.subscribe channel)).2.subscriberCount channel =
      hub.subscriberCount channel + 1 := by
  rw [subscriberCount_apply hs, attached, if_pos (ChannelName.fault?_eq_none_iff.2 hv)]
  simp [Receiver.after?, Receiver.listensOn, subscriberCount]

theorem subscriberCount_drop (hs : hub.Sound) {r : Receiver} (hr : hub.receiver? id = some r)
    (hl : r.listensOn channel = true) :
    (hub.apply (.drop id)).2.subscriberCount channel + 1 = hub.subscriberCount channel := by
  -- the receiver is the one with its number
  have hone : (hub.receivers.filter fun other => !decide (other.id ≠ id)).countP
      (·.listensOn channel) = 1 := by
    rw [List.countP_filter]
    have hids := List.count_eq_one_of_mem (List.pairwise_map.2 hs.distinct)
      (List.mem_map_of_mem (f := Receiver.id) (mem_of_receiver? hr))
    rw [List.count, List.countP_map] at hids
    rw [← hids]
    refine List.countP_congr fun other hother => ?_
    have hsame : other.id = id → other.listensOn channel = true := fun ho => by
      rwa [hs.eq_of_id hother (mem_of_receiver? hr) (ho.trans (id_of_receiver? hr).symm)]
    have hid := id_of_receiver? hr
    grind
  rw [subscriberCount, subscriberCount,
    List.countP_eq_countP_filter_add hub.receivers _ fun other => decide (other.id ≠ id), hone]
  rfl

end Hub

end Custody
