import Custody.Proofs.Fleet.Calm
import Custody.Proofs.Hub.Delivery
/-!
# Receivers that are read at once

One who reads all there is after each round of operations (`Hub.feed`) yields of every round the
payloads that were published on the channel in it, or the last of them if they were more than a
receiver keeps, and ends with the round in which the channel is closed (`Hub.heard`). So what such a
listener is given depends on nothing but the capacity and what is published and closed
(`Hub.HasNew.feed_eq`).
-/

namespace Custody

namespace Receiver

/-- What is kept of what has been kept and of what comes after it. -/
theorem keepLast_keepLast_append (capacity : Nat) (first second : List String) :
    keepLast capacity (keepLast capacity first ++ second) =
      keepLast capacity (first ++ second) := by
  have hfront : keepLast capacity first ++ second =
      (first ++ second).drop (first.length - capacity) := by
    rw [List.drop_append_of_le_length (Nat.sub_le ..), keepLast]
  rw [hfront]
  simp only [keepLast, List.drop_drop, List.length_drop, List.length_append]
  congr 1
  omega

end Receiver

namespace Hub

/-- The operation neither reads with the receiver nor drops it. -/
def Operation.Spares (id : ReceiverId) (op : Operation) : Prop :=
  op ≠ .receive id ∧ op ≠ .drop id

theorem Operation.spares_subscribe (id : ReceiverId) (channel : String) :
    (subscribe channel).Spares id := by
  simp [Spares]

theorem Operation.spares_drop {id other : ReceiverId} (h : other ≠ id) :
    (drop other).Spares id := by
  simp [Spares, h]

/-- Others neither read nor drop. -/
theorem Operation.spares_outside (id : ReceiverId) (op : Outside) : op.operation.Spares id := by
  cases op <;> simp [Spares, Outside.operation]

/-- What a receiver yields to one who reads all there is after each round of operations, with the
times of the rounds, up to its end. -/
def feed (hub : Hub) (id : ReceiverId) : List (Nat × List Operation) → List (Nat × StreamEvent)
  | [] => []
  | (time, ops) :: rest =>
    let (payloads, ended, hub) := (hub.run ops).2.drain id
    payloads.map (fun payload => (time, .message payload)) ++
      if ended then [(time, .ended)] else hub.feed id rest

/-- What rounds of operations have to say on a channel: of each round the last payloads, at most as
many as a receiver keeps, up to the close. -/
def heard (capacity : Nat) (channel : String) :
    List (Nat × List Operation) → List (Nat × StreamEvent)
  | [] => []
  | (time, ops) :: rest =>
    (Receiver.keepLast capacity (aired channel ops)).map
        (fun payload => (time, .message payload)) ++
      if .close channel ∈ ops then [(time, .ended)] else heard capacity channel rest

variable {hub : Hub} {channel : String} {id : ReceiverId}

/-- What a new receiver keeps while nobody reads with it. -/
theorem HasNew.kept_of_spares (h : hub.HasNew channel id) {ops : List Operation}
    (hops : ∀ op ∈ ops, op.Spares id) :
    hub.kept id ops = Receiver.keepLast hub.capacity (aired channel ops) := by
  induction ops using List.reverseRecOn with
  | nil => simp [kept, run, h.receiver?_eq, aired, Receiver.keepLast]
  | append_singleton ops op ih =>
    have hd : .drop id ∉ ops ++ [op] := fun hmem => (hops _ hmem).2 rfl
    have hop := (hops op (by simp)).1
    rw [h.kept_snoc ops hd, if_neg hop, ih fun other hother => hops other (by simp [hother]),
      Receiver.keepLast_keepLast_append, aired_snoc]

/-- **A new receiver after operations** in which nobody reads with it. -/
theorem HasNew.receiver?_of_spares (h : hub.HasNew channel id) {ops : List Operation}
    (hops : ∀ op ∈ ops, op.Spares id) :
    (hub.run ops).2.receiver? id =
      some ⟨id, channel, Receiver.keepLast hub.capacity (aired channel ops),
        decide (.close channel ∉ ops)⟩ := by
  rcases h.receiver?_run ops with ⟨-, r, hr, ha⟩ | ⟨hd, -⟩
  · have hpending : r.pending = Receiver.keepLast hub.capacity (aired channel ops) := by
      rw [← h.kept_of_spares hops, kept, hr, Option.elim_some]
    have hopen : r.isOpen = decide (.close channel ∉ ops) :=
      Bool.eq_iff_iff.2 (ha.isOpen_iff.trans (decide_eq_true_iff).symm)
    rw [hr, ← hpending, ← hopen, ← ha.id_eq, ← ha.channel_eq]
  · exact absurd rfl (hops _ hd).2

/-- A receiver that has been read to the end of what it kept is like a new one. -/
theorem hasNew_skim (hs : hub.Sound) {r : Receiver} (hr : hub.receiver? id = some r)
    (ho : r.isOpen = true) : (hub.skim id r.pending.length).HasNew r.channel id := by
  obtain rfl := id_of_receiver? hr
  refine ⟨hs.skim .., ?_⟩
  rw [receiver?_skim hr, List.drop_length, ho]

/-- **What is read at once is read one payload after the other**, until none is found. -/
theorem drain_eq_receive (hs : hub.Sound) (id : ReceiverId) :
    hub.drain id = match hub.receive id with
      | (.payload payload, hub') => (payload :: (hub'.drain id).1, (hub'.drain id).2)
      | (.nothing, _) => ([], false, hub)
      | (.ended, _) => ([], true, hub) := by
  cases hr : hub.receiver? id with
  | none =>
    have hfind : hub.receivers.find? (·.id == id) = none := hr
    rw [drain_of_none hr]
    simp only [receive, hfind]
  | some r =>
    rw [receive_eq hr, drain_eq hs hr, apply_receive, Receiver.read_fst]
    cases hp : r.pending with
    | nil => cases ho : r.isOpen <;> simp [skim_zero]
    | cons payload rest =>
      have hnext : (hub.skim id 1).receiver? id = some { r with pending := rest } := by
        rw [receiver?_skim hr, hp, List.drop_one, List.tail_cons]
      simp [drain_eq (hs.skim id 1) hnext, skim_skim, Nat.add_comm]

/-- **What a receiver yields that is read at once.** -/
theorem HasNew.feed_eq (h : hub.HasNew channel id) {rounds : List (Nat × List Operation)}
    (hr : ∀ round ∈ rounds, ∀ op ∈ round.2, op.Spares id) :
    hub.feed id rounds = heard hub.capacity channel rounds := by
  induction rounds generalizing hub with
  | nil => rfl
  | cons round rest ih =>
    obtain ⟨time, ops⟩ := round
    obtain ⟨hops, hrest⟩ := List.forall_mem_cons.1 hr
    have hs := sound_run h.sound ops
    have hreceiver := h.receiver?_of_spares hops
    rw [feed, heard, drain_eq hs hreceiver]
    by_cases hc : .close channel ∈ ops
    · simp [hc]
    · have hnew := hasNew_skim hs hreceiver (by simpa using hc)
      have hcapacity : ((hub.run ops).2.skim id
          (Receiver.keepLast hub.capacity (aired channel ops)).length).capacity = hub.capacity :=
        hub.capacity_run ops
      simp only [hc, not_false_eq_true, decide_true, Bool.not_true, Bool.false_eq_true, if_false,
        ih hnew hrest, hcapacity]

end Hub

end Custody
