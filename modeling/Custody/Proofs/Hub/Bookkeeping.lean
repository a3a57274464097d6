import Custody.Proofs.Hub.Receiver
import Mathlib.Data.List.Induction
import Mathlib.Data.Set.Card
/-!
# The books of a hub

A channel is tracked from a subscription to it until it is closed or forgotten, and the name can be
opened again. What has been done with a hub, and what it has answered, tells who holds a
subscription on a channel (`Hub.Holds`): those who have subscribed, have not been dropped since, and
whose channel has not been closed since. It also tells which channels are tracked (`Hub.Tracks`).
The hub has its own books, the receivers that are open and the names that it keeps. The two agree
(`Hub.holds_iff`, `Hub.tracks_iff`), because an open receiver is always on a tracked channel
(`Hub.Tidy`), so that no prune forgets a channel that somebody listens on.

* `Hub.mem_channels_apply`: what is tracked after an operation.
* `Hub.Tidy.apply`: operations keep a hub tidy.
* `Hub.encard_holds`: the hub counts those who hold a subscription.
* `Hub.inOrder_run`: what the answers of a hub tell of them.
-/

namespace Custody

namespace Receiver

/-- Who listens on a channel goes on unless the channel is closed. -/
theorem listensOn_of_after? {capacity : Nat} {receiver next : Receiver} {op : Hub.Operation}
    (h : receiver.after? capacity op = some next) (channel : String) :
    next.listensOn channel = true ↔ receiver.listensOn channel = true ∧ op ≠ .close channel := by
  have hchannel := after?_channel h
  cases op with
  | close name =>
    simp only [after?, Option.some.injEq] at h
    grind [listensOn]
  | receive id =>
    have hopen := receiver.read_isOpen
    simp only [after?, Option.some.injEq] at h
    grind [listensOn]
  | _ =>
    simp only [after?] at h
    grind [listensOn, deliver]

/-- Only its drop removes a receiver. -/
theorem isSome_after?_iff {capacity : Nat} {receiver : Receiver} {op : Hub.Operation} :
    (receiver.after? capacity op).isSome ↔ op ≠ .drop receiver.id := by
  cases op <;> grind [after?]

end Receiver

namespace Hub

variable {hub : Hub} {channel : String} {id : ReceiverId} {capacity : Nat}

/-! ## Tracked channels -/

/-- **What is tracked after an operation**: a channel that is subscribed to, and those that were
tracked before, unless they are closed or forgotten. -/
theorem mem_channels_apply (hub : Hub) (op : Operation) (channel : String) :
    channel ∈ (hub.apply op).2.channels ↔
      (op = .subscribe channel ∧ ChannelName.Valid channel) ∨
        (channel ∈ hub.channels ∧ op ≠ .close channel ∧
          (op = .prune → 0 < hub.subscriberCount channel)) := by
  cases op with
  | subscribe name =>
    rw [← ChannelName.fault?_eq_none_iff]
    cases hf : ChannelName.fault? name <;> simp only [apply, subscribe, hf] <;> grind
  | publish name payload =>
    cases hf : ChannelName.fault? name <;> simp [apply, publish, hf]
  | receive other =>
    cases hr : hub.receivers.find? (·.id == other) <;> simp [apply, receive, hr]
  | drop other => simp [apply, drop]
  | close name => simp [apply, close, Operation.close.injEq, @eq_comm _ name channel]
  | prune => simp [apply, prune]

/-- The tracked channels are different ones that can be subscribed to, and every open receiver is on
one of them. -/
structure Tidy (hub : Hub) : Prop where
  valid : ∀ channel ∈ hub.channels, ChannelName.Valid channel
  nodup : hub.channels.Nodup
  tracked : ∀ r ∈ hub.receivers, ∀ channel, r.listensOn channel = true → channel ∈ hub.channels

theorem tidy_new (capacity : Nat) : (new capacity).Tidy :=
  ⟨by simp [new], .nil, by simp [new]⟩

theorem nodup_channels_apply (h : hub.channels.Nodup) (op : Operation) :
    (hub.apply op).2.channels.Nodup := by
  cases op with
  | subscribe name =>
    cases hf : ChannelName.fault? name with
    | some fault => simpa [apply, subscribe, hf] using h
    | none =>
      simp only [apply, subscribe, hf]
      split
      · exact h
      · next hn => exact List.concat_eq_append ▸ h.concat hn
  | publish name payload =>
    cases hf : ChannelName.fault? name <;> simpa [apply, publish, hf] using h
  | receive other =>
    cases hr : hub.receivers.find? (·.id == other) <;> simpa [apply, receive, hr] using h
  | drop other => exact h
  | close name => exact h.filter _
  | prune => exact h.filter _

/-- Operations keep a hub tidy. -/
theorem Tidy.apply (ht : hub.Tidy) (hs : hub.Sound) (op : Operation) : (hub.apply op).2.Tidy where
  valid channel hchannel := by
    rcases (hub.mem_channels_apply op channel).1 hchannel with ⟨-, hv⟩ | ⟨hold, -⟩
    · exact hv
    · exact ht.valid channel hold
  nodup := nodup_channels_apply ht.nodup op
  tracked r hr channel hl := by
    rw [mem_channels_apply]
    rw [receivers_apply hs, List.mem_append, List.mem_filterMap] at hr
    rcases hr with ⟨old, hold, ha⟩ | hnew
    · -- a channel on which somebody listens is not forgotten
      obtain ⟨hlold, hop⟩ := (Receiver.listensOn_of_after? ha channel).1 hl
      exact .inr ⟨ht.tracked old hold channel hlold, hop,
        fun _ => List.countP_pos_iff.2 ⟨old, hold, hlold⟩⟩
    · obtain ⟨name, rfl, hf, rfl⟩ := mem_attached hnew
      obtain rfl : name = channel := by simpa [Receiver.listensOn] using hl
      exact .inl ⟨rfl, ChannelName.fault?_eq_none_iff.1 hf⟩

theorem tidy_run (ht : hub.Tidy) (hs : hub.Sound) (ops : List Operation) :
    (hub.run ops).2.Tidy := by
  induction ops generalizing hub with
  | nil => exact ht
  | cons op rest ih => exact ih (ht.apply hs op) (hs.apply op)

/-! ## Who holds a subscription -/

/-- A place in a history with one more operation is the last one or a place before it. -/
theorem exists_concat_eq_iff {past : List Operation} {op here : Operation}
    {P : List Operation → List Operation → Prop} :
    (∃ earlier later, past ++ [op] = earlier ++ here :: later ∧ P earlier later) ↔
      (op = here ∧ P past []) ∨
        ∃ earlier later, past = earlier ++ here :: later ∧ P earlier (later ++ [op]) := by
  constructor
  · rintro ⟨earlier, later, hpast, h⟩
    rcases List.eq_nil_or_concat later with rfl | ⟨later, last, rfl⟩
    · obtain ⟨rfl, hop⟩ := List.append_inj' hpast rfl
      exact .inl ⟨List.singleton_inj.1 hop, h⟩
    · rw [List.concat_eq_append] at hpast h
      obtain ⟨rfl, hop⟩ := List.append_inj' (hpast.trans (List.append_assoc _ (_ :: _) _).symm) rfl
      exact .inr ⟨earlier, later, rfl, List.singleton_inj.1 hop ▸ h⟩
  · rintro (⟨rfl, h⟩ | ⟨earlier, later, rfl, h⟩)
    · exact ⟨past, [], rfl, h⟩
    · exact ⟨earlier, later ++ [op], List.append_assoc _ (_ :: _) _, h⟩

/-- Somebody has subscribed to the channel in this history and was given the number; since then the
number has not been dropped, and the channel has not been closed. -/
def Holds (hub : Hub) (past : List Operation) (channel : String) (id : ReceiverId) : Prop :=
  ∃ earlier later, past = earlier ++ .subscribe channel :: later ∧
    ((hub.run earlier).2.apply (.subscribe channel)).1 = .subscribed id ∧
    .drop id ∉ later ∧ .close channel ∉ later

/-- A subscription is answered by the next number, on a name that is fit. -/
theorem answer_subscribe_iff :
    (hub.apply (.subscribe channel)).1 = .subscribed id ↔
      ChannelName.Valid channel ∧ id = hub.next := by
  rw [← ChannelName.fault?_eq_none_iff]
  cases hf : ChannelName.fault? channel <;> simp [apply, subscribe, hf, eq_comm]

/-- **Who holds a subscription after one more operation**: one who subscribes by it, and those who
held one before, unless they are dropped by it or the channel is closed. -/
theorem holds_snoc (hub : Hub) (past : List Operation) (op : Operation) (channel : String)
    (id : ReceiverId) :
    hub.Holds (past ++ [op]) channel id ↔
      (op = .subscribe channel ∧ ((hub.run past).2.apply op).1 = .subscribed id) ∨
        (hub.Holds past channel id ∧ op ≠ .drop id ∧ op ≠ .close channel) := by
  rw [Holds, exists_concat_eq_iff]
  constructor
  · rintro (⟨rfl, hanswer, -⟩ | ⟨earlier, later, hpast, hanswer, hdrop, hclose⟩)
    · exact .inl ⟨rfl, hanswer⟩
    · rw [List.mem_append, not_or, List.mem_singleton] at hdrop hclose
      exact .inr ⟨⟨earlier, later, hpast, hanswer, hdrop.1, hclose.1⟩, Ne.symm hdrop.2,
        Ne.symm hclose.2⟩
  · rintro (⟨rfl, hanswer⟩ | ⟨⟨earlier, later, hpast, hanswer, hdrop, hclose⟩, hop, hop'⟩)
    · exact .inl ⟨rfl, hanswer, List.not_mem_nil, List.not_mem_nil⟩
    · exact .inr ⟨earlier, later, hpast, hanswer, by simp [hdrop, Ne.symm hop],
        by simp [hclose, Ne.symm hop']⟩

/-- Who listens on a channel after an operation. -/
theorem exists_listener_apply_iff (hs : hub.Sound) (op : Operation) (channel : String)
    (id : ReceiverId) :
    (∃ r ∈ (hub.apply op).2.receivers, r.id = id ∧ r.listensOn channel = true) ↔
      (op = .subscribe channel ∧ (hub.apply op).1 = .subscribed id) ∨
        ((∃ r ∈ hub.receivers, r.id = id ∧ r.listensOn channel = true) ∧
          op ≠ .drop id ∧ op ≠ .close channel) := by
  simp only [receivers_apply hs, List.mem_append, List.mem_filterMap]
  constructor
  · rintro ⟨r, ⟨old, hold, ha⟩ | hnew, rfl, hl⟩
    · obtain ⟨hlold, hop⟩ := (Receiver.listensOn_of_after? ha channel).1 hl
      have hid := Receiver.after?_id ha
      exact .inr ⟨⟨old, hold, hid.symm, hlold⟩,
        hid ▸ Receiver.isSome_after?_iff.1 (Option.isSome_of_eq_some ha), hop⟩
    · obtain ⟨name, rfl, hf, rfl⟩ := mem_attached hnew
      obtain rfl : name = channel := by simpa [Receiver.listensOn] using hl
      exact .inl ⟨rfl, answer_subscribe_iff.2 ⟨ChannelName.fault?_eq_none_iff.1 hf, rfl⟩⟩
  · rintro (⟨rfl, hanswer⟩ | ⟨⟨old, hold, rfl, hlold⟩, hdrop, hclose⟩)
    · obtain ⟨hv, rfl⟩ := answer_subscribe_iff.1 hanswer
      refine ⟨⟨hub.next, channel, [], true⟩, .inr ?_, rfl, by simp [Receiver.listensOn]⟩
      simp [attached, ChannelName.fault?_eq_none_iff.2 hv]
    · obtain ⟨next, ha⟩ := Option.isSome_iff_exists.1 (Receiver.isSome_after?_iff.2 hdrop)
      exact ⟨next, .inl ⟨old, hold, ha⟩, Receiver.after?_id ha,
        (Receiver.listensOn_of_after? ha channel).2 ⟨hlold, hclose⟩⟩

/-- **Those who hold a subscription are those who listen.** -/
theorem holds_iff (capacity : Nat) (past : List Operation) (channel : String) (id : ReceiverId) :
    (new capacity).Holds past channel id ↔
      ∃ r ∈ ((new capacity).run past).2.receivers, r.id = id ∧ r.listensOn channel = true := by
  induction past using List.reverseRecOn with
  | nil => simp [Holds, new, run]
  | append_singleton past op ih =>
    have hs := sound_run (sound_new capacity) past
    rw [holds_snoc, ih, run_snoc, exists_listener_apply_iff hs]

/-- **The hub counts those who hold a subscription.** -/
theorem encard_holds (capacity : Nat) (past : List Operation) (channel : String) :
    {id | (new capacity).Holds past channel id}.encard =
      ((new capacity).run past).2.subscriberCount channel := by
  have hs := sound_run (sound_new capacity) past
  have hids : ((((new capacity).run past).2.receivers.filter (·.listensOn channel)).map
      Receiver.id).Nodup :=
    (List.pairwise_map.2 hs.distinct).sublist (List.filter_sublist.map _)
  have hset : {id | (new capacity).Holds past channel id} =
      ((((new capacity).run past).2.receivers.filter (·.listensOn channel)).map
        Receiver.id).toFinset := by
    ext id
    rw [Set.mem_ofPred_eq, holds_iff]
    simp only [List.coe_toFinset, Set.mem_ofPred_eq, List.mem_map, List.mem_filter]
    exact exists_congr fun r => by rw [and_assoc, and_comm (a := r.id = id)]
  rw [hset, Set.encard_coe_eq_coe_finsetCard, List.toFinset_card_of_nodup hids, List.length_map,
    subscriberCount, List.countP_eq_length_filter]

/-! ## What is tracked -/

/-- The channel has been subscribed to in this history; since then it has not been closed, and at
each prune somebody held a subscription on it. -/
def Tracks (hub : Hub) (past : List Operation) (channel : String) : Prop :=
  ∃ earlier later, past = earlier ++ .subscribe channel :: later ∧ ChannelName.Valid channel ∧
    .close channel ∉ later ∧ ∀ seen rest, later = seen ++ .prune :: rest →
      ∃ id, hub.Holds (earlier ++ .subscribe channel :: seen) channel id

/-- **What is tracked after one more operation**, told from the history. -/
theorem tracks_snoc (hub : Hub) (past : List Operation) (op : Operation) (channel : String) :
    hub.Tracks (past ++ [op]) channel ↔
      (op = .subscribe channel ∧ ChannelName.Valid channel) ∨
        (hub.Tracks past channel ∧ op ≠ .close channel ∧
          (op = .prune → ∃ id, hub.Holds past channel id)) := by
  rw [Tracks, exists_concat_eq_iff]
  constructor
  · rintro (⟨rfl, hvalid, -⟩ | ⟨earlier, later, rfl, hvalid, hclose, hprune⟩)
    · exact .inl ⟨rfl, hvalid⟩
    · rw [List.mem_append, not_or, List.mem_singleton] at hclose
      refine .inr ⟨⟨earlier, later, rfl, hvalid, hclose.1, fun seen rest hlater => ?_⟩,
        Ne.symm hclose.2, ?_⟩
      · exact hprune seen (rest ++ [op]) (by rw [hlater, List.append_assoc, List.cons_append])
      · rintro rfl
        exact hprune later [] rfl
  · rintro (⟨rfl, hvalid⟩ | ⟨⟨earlier, later, rfl, hvalid, hclose, hprune⟩, hop, hheld⟩)
    · exact .inl ⟨rfl, hvalid, List.not_mem_nil, fun seen rest hnil => by simp at hnil⟩
    · refine .inr ⟨earlier, later, rfl, hvalid, by simp [hclose, Ne.symm hop],
        fun seen rest hlater => ?_⟩
      rcases (exists_concat_eq_iff (P := fun first _ => first = seen)).1 ⟨seen, rest, hlater, rfl⟩
        with ⟨rfl, rfl⟩ | ⟨first, others, rfl, rfl⟩
      · exact hheld rfl
      · exact hprune first others rfl

theorem exists_holds_iff (capacity : Nat) (past : List Operation) (channel : String) :
    (∃ id, (new capacity).Holds past channel id) ↔
      0 < ((new capacity).run past).2.subscriberCount channel := by
  simp only [holds_iff, subscriberCount, List.countP_pos_iff]
  constructor
  · rintro ⟨-, r, hr, -, hl⟩
    exact ⟨r, hr, hl⟩
  · rintro ⟨r, hr, hl⟩
    exact ⟨r.id, r, hr, rfl, hl⟩

/-- **The hub keeps the names that are tracked.** -/
theorem tracks_iff (capacity : Nat) (past : List Operation) (channel : String) :
    (new capacity).Tracks past channel ↔ channel ∈ ((new capacity).run past).2.channels := by
  induction past using List.reverseRecOn with
  | nil => simp [Tracks, new, run]
  | append_singleton past op ih =>
    rw [tracks_snoc, ih, run_snoc, mem_channels_apply, exists_holds_iff]

/-! ## What the answers tell -/

/-- `hub.InOrder tracked holders`: the books of the hub, and what it answers, are those of a hub
that tracks these channels, with these who hold subscriptions on them. -/
structure InOrder (hub : Hub) (tracked : Set String) (holders : String → Set ReceiverId) :
    Prop where
  mem_channels : ∀ channel, channel ∈ hub.channels ↔ channel ∈ tracked
  nodup : hub.channels.Nodup
  valid : ∀ channel ∈ tracked, ChannelName.Valid channel
  /-- The hub counts the holders of each channel. -/
  count : ∀ channel, (holders channel).encard = hub.subscriberCount channel
  /-- One who subscribes to a name that is fit becomes a holder, with a new number. -/
  subscribed : ∀ channel, ChannelName.Valid channel → ∃ id,
    (hub.apply (.subscribe channel)).1 = .subscribed id ∧ ∀ name, id ∉ holders name
  /-- A payload goes to as many as there are holders, and opens no channel. -/
  published : ∀ channel payload, ChannelName.Valid channel → ∃ later,
    hub.publish channel payload = .ok (hub.subscriberCount channel, later) ∧
      later.channels = hub.channels
  /-- A close tells whether the channel was tracked. -/
  closed : ∀ channel, (hub.close channel).1 = true ↔ channel ∈ tracked
  /-- A prune gives the number of tracked channels without holders. -/
  pruned : {channel | channel ∈ tracked ∧ holders channel = ∅}.encard = hub.prune.1
  /-- It leaves those with holders. -/
  kept : ∀ channel, channel ∈ hub.prune.2.channels ↔ (holders channel).Nonempty
  /-- After a prune there is nothing to prune. -/
  prune_prune : hub.prune.2.prune = (0, hub.prune.2)
  /-- A subscription to a name that is unfit is refused and changes nothing, and so is a payload
  for it. -/
  refused : ∀ channel, ¬ ChannelName.Valid channel → ∃ reason,
    hub.apply (.subscribe channel) = (.refused (.invalidChannel reason), hub) ∧
      ∀ payload, hub.apply (.publish channel payload) = (.refused (.invalidChannel reason), hub)

theorem publish_of_valid (hub : Hub) (payload : String) (h : ChannelName.Valid channel) :
    ∃ later, hub.publish channel payload = .ok (hub.subscriberCount channel, later) ∧
      later.channels = hub.channels := by
  rw [publish, ChannelName.fault?_eq_none_iff.2 h]
  exact ⟨_, rfl, rfl⟩

theorem refused_of_not_valid (hub : Hub) (h : ¬ ChannelName.Valid channel) :
    ∃ reason, hub.apply (.subscribe channel) = (.refused (.invalidChannel reason), hub) ∧
      ∀ payload, hub.apply (.publish channel payload) =
        (.refused (.invalidChannel reason), hub) := by
  obtain ⟨fault, hf⟩ := Option.ne_none_iff_exists'.1 (mt ChannelName.fault?_eq_none_iff.1 h)
  exact ⟨fault.message, by simp [apply, subscribe, hf, BrokerError.ofFault],
    fun payload => by simp [apply, publish, hf, BrokerError.ofFault]⟩

theorem mem_channels_prune (hub : Hub) (channel : String) :
    channel ∈ hub.prune.2.channels ↔ channel ∈ hub.channels ∧ 0 < hub.subscriberCount channel := by
  simp [prune]

/-- A prune gives the number of channels that it forgets. -/
theorem prune_fst (hub : Hub) :
    hub.prune.1 = (hub.channels.filter fun name => hub.subscriberCount name = 0).length := by
  have hlength := List.length_eq_length_filter_add (l := hub.channels)
    fun name => decide (0 < hub.subscriberCount name)
  have hrest : (hub.channels.filter fun name => !decide (0 < hub.subscriberCount name)) =
      hub.channels.filter fun name => decide (hub.subscriberCount name = 0) :=
    List.filter_congr fun name _ => by grind
  rw [hrest] at hlength
  simp only [prune]
  omega

theorem prune_prune (hub : Hub) : hub.prune.2.prune = (0, hub.prune.2) := by
  have hkept : hub.prune.2.channels.filter
      (fun name => decide (0 < hub.prune.2.subscriberCount name)) = hub.prune.2.channels :=
    List.filter_eq_self.2 fun name hname =>
      decide_eq_true ((hub.mem_channels_prune name).1 hname).2
  rw [prune, hkept, Nat.sub_self]

/-- The books of a hub that is tidy are in order, by the names that it keeps and those it counts. -/
theorem Tidy.inOrder (ht : hub.Tidy) {tracked : Set String} {holders : String → Set ReceiverId}
    (hmem : ∀ channel, channel ∈ hub.channels ↔ channel ∈ tracked)
    (hcount : ∀ channel, (holders channel).encard = hub.subscriberCount channel)
    (hnew : ∀ channel, hub.next ∉ holders channel) : hub.InOrder tracked holders := by
  have hempty (channel : String) : holders channel = ∅ ↔ hub.subscriberCount channel = 0 := by
    rw [← Set.encard_eq_zero, hcount, Nat.cast_eq_zero]
  refine ⟨hmem, ht.nodup, fun channel hchannel => ht.valid channel ((hmem channel).2 hchannel),
    hcount, fun channel hvalid => ⟨hub.next, answer_subscribe_iff.2 ⟨hvalid, rfl⟩, hnew⟩,
    fun channel payload => hub.publish_of_valid payload,
    fun channel => List.contains_iff_mem.trans (hmem channel), ?_, fun channel => ?_,
    hub.prune_prune, fun channel => hub.refused_of_not_valid⟩
  · have hset : {channel | channel ∈ tracked ∧ holders channel = ∅} =
        (hub.channels.filter fun name => hub.subscriberCount name = 0).toFinset := by
      ext channel
      simp [hempty, ← hmem]
    rw [hset, Set.encard_coe_eq_coe_finsetCard,
      List.toFinset_card_of_nodup (ht.nodup.filter _), prune_fst]
  · rw [mem_channels_prune, Set.nonempty_iff_ne_empty, Ne, hempty, Nat.pos_iff_ne_zero]
    refine and_iff_right_of_imp fun hpos => ?_
    -- who is counted listens on a tracked channel
    obtain ⟨r, hr, hl⟩ := List.countP_pos_iff.1 (Nat.pos_iff_ne_zero.2 hpos)
    exact ht.tracked r hr channel hl

/-- The next number has not been given to anybody. -/
theorem not_holds_next (capacity : Nat) (past : List Operation) (channel : String) :
    ¬ (new capacity).Holds past channel ((new capacity).run past).2.next := by
  rw [holds_iff]
  rintro ⟨r, hr, hid, -⟩
  exact absurd hid (Nat.ne_of_lt ((sound_run (sound_new capacity) past).id_lt r hr))

/-- **The books of a hub are in order**, whatever has been done with it: it keeps the channels that
have been subscribed to and neither been closed nor been forgotten since, it counts those who have
subscribed and have not been dropped, and whose channel has not been closed since, and what it
answers agrees with that. -/
theorem inOrder_run (capacity : Nat) (past : List Operation) :
    ((new capacity).run past).2.InOrder {channel | (new capacity).Tracks past channel}
      fun channel => {id | (new capacity).Holds past channel id} :=
  (tidy_run (tidy_new capacity) (sound_new capacity) past).inOrder
    (fun channel => (tracks_iff capacity past channel).symm) (encard_holds capacity past)
    (not_holds_next capacity past)

/-- A channel is opened again after its close, and another one loses its only receiver. -/
def reopened : List Operation :=
  [.subscribe "keygen:s3", .close "keygen:s3", .subscribe "keygen:s3", .subscribe "keygen:s4",
    .drop 2]

/-- The subscription on the channel that has been closed is none on the channel that is opened after
it. The one that is dropped leaves a channel without receivers, and that one is forgotten. -/
theorem inOrder_run_reopened :
    let hub := ((new 16).run reopened).2
    {id | (new 16).Holds reopened "keygen:s3" id}.encard = 1 ∧
      ¬ (new 16).Holds reopened "keygen:s3" 0 ∧ (new 16).Holds reopened "keygen:s3" 1 ∧
      (new 16).Tracks reopened "keygen:s4" ∧ hub.subscriberCount "keygen:s4" = 0 ∧
      {channel | (new 16).Tracks reopened channel ∧
        {id | (new 16).Holds reopened channel id} = ∅}.encard = 1 ∧
      hub.prune.2.channels = ["keygen:s3"] := by
  have horder := inOrder_run 16 reopened
  refine ⟨?_, ?_, ⟨[.subscribe "keygen:s3", .close "keygen:s3"], _, rfl, by decide, by decide,
    by decide⟩, ?_, by decide, ?_, by decide⟩
  · rw [horder.count "keygen:s3"]
    decide
  · rw [holds_iff]
    decide
  · rw [tracks_iff]
    decide
  · exact horder.pruned.trans (by decide)

end Hub

end Custody
