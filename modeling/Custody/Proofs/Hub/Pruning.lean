import Custody.Proofs.Hub.Receiver
/-!
# Pruning a hub

Which channels a hub tracks is of no account to those who publish and listen: a payload goes to the
receivers that are attached, whether their channel is in the list or not, and a channel that has
been forgotten is opened again by the next who subscribes. So two hubs with the same receivers
(`Hub.Alike`) stay so by every operation and answer it alike, but for what only tells of the
tracked channels.

* `Hub.Use`, `Hub.record`: all that can be done with a hub, looks at its counts included, and a
  history of it.
* `Hub.Alike.use`: two hubs alike after a use, and what is found.
* `Hub.audible_record`: a history without its prunes.
-/

namespace Custody.Hub

/-! ## Histories with looks at the counts -/

/-- What can be done with a hub. -/
inductive Use
  | operate (op : Operation)
  | countSubscribers (channel : String)
  | countChannels
  deriving DecidableEq, Repr

/-- What is found by a use. -/
inductive Finding
  | answer (answer : Answer)
  | count (n : Nat)
  deriving DecidableEq, Repr

/-- The use forgets the channels that nobody listens on. -/
def Use.isPrune : Use → Bool
  | operate .prune => true
  | _ => false

/-- What is found by the use tells nothing but which channels are tracked. -/
def Use.isHousekeeping : Use → Bool
  | operate .prune | operate (.close _) | countChannels => true
  | _ => false

/-- What a use finds, and the hub after it. -/
def use (hub : Hub) : Use → Finding × Hub
  | .operate op => (.answer (hub.apply op).1, (hub.apply op).2)
  | .countSubscribers channel => (.count (hub.subscriberCount channel), hub)
  | .countChannels => (.count hub.channelCount, hub)

/-- The uses of a hub in order, each with what it finds, and the hub after them. -/
def record (hub : Hub) : List Use → List (Use × Finding) × Hub
  | [] => ([], hub)
  | use :: rest =>
    let (finding, hub) := hub.use use
    let (entries, hub) := hub.record rest
    ((use, finding) :: entries, hub)

/-- What publishers and subscribers learn from a history. -/
def audible (entries : List (Use × Finding)) : List (Use × Finding) :=
  entries.filter fun entry => !entry.1.isHousekeeping

/-! ## Hubs alike -/

/-- Two hubs differ at most in the channels that they track. -/
structure Alike (hub other : Hub) : Prop where
  capacity : hub.capacity = other.capacity
  receivers : hub.receivers = other.receivers
  next : hub.next = other.next

namespace Alike

variable {hub other third : Hub}

theorem refl (hub : Hub) : hub.Alike hub :=
  ⟨rfl, rfl, rfl⟩

theorem symm (h : hub.Alike other) : other.Alike hub :=
  ⟨h.capacity.symm, h.receivers.symm, h.next.symm⟩

theorem trans (h : hub.Alike other) (h' : other.Alike third) : hub.Alike third :=
  ⟨h.capacity.trans h'.capacity, h.receivers.trans h'.receivers, h.next.trans h'.next⟩

/-- Hubs alike are one hub with two lists of channels. -/
theorem eq_with (h : hub.Alike other) : other = { hub with channels := other.channels } := by
  obtain ⟨capacity, channels, receivers, next⟩ := other
  obtain ⟨rfl, rfl, rfl⟩ := h
  rfl

/-- A prune changes nothing but the list of channels. -/
theorem prune (hub : Hub) : hub.prune.2.Alike hub :=
  ⟨rfl, rfl, rfl⟩

theorem subscriberCount (h : hub.Alike other) (channel : String) :
    hub.subscriberCount channel = other.subscriberCount channel := by
  rw [Hub.subscriberCount, Hub.subscriberCount, h.receivers]

/-- A subscription to one of two hubs alike is a subscription to the other. -/
theorem subscribe (h : hub.Alike other) (channel : String) :
    (∃ e, hub.subscribe channel = .error e ∧ other.subscribe channel = .error e) ∨
      ∃ id hub' other', hub.subscribe channel = .ok (id, hub') ∧
        other.subscribe channel = .ok (id, other') ∧ hub'.Alike other' := by
  rw [h.eq_with]
  unfold Hub.subscribe
  cases ChannelName.fault? channel with
  | some fault => exact .inl ⟨_, rfl, rfl⟩
  | none => exact .inr ⟨_, _, _, rfl, rfl, rfl, rfl, rfl⟩

theorem publish (h : hub.Alike other) (channel payload : String) :
    (∃ e, hub.publish channel payload = .error e ∧ other.publish channel payload = .error e) ∨
      ∃ count hub' other', hub.publish channel payload = .ok (count, hub') ∧
        other.publish channel payload = .ok (count, other') ∧ hub'.Alike other' := by
  rw [h.eq_with]
  unfold Hub.publish
  cases ChannelName.fault? channel with
  | some fault => exact .inl ⟨_, rfl, rfl⟩
  | none => exact .inr ⟨_, _, _, rfl, rfl, rfl, rfl, rfl⟩

theorem receive (h : hub.Alike other) (id : ReceiverId) :
    (hub.receive id).1 = (other.receive id).1 ∧ (hub.receive id).2.Alike (other.receive id).2 := by
  rw [h.eq_with]
  unfold Hub.receive
  cases hub.receivers.find? (·.id == id) with
  | none => exact ⟨rfl, rfl, rfl, rfl⟩
  | some r => exact ⟨rfl, rfl, rfl, rfl⟩

theorem drop (h : hub.Alike other) (id : ReceiverId) :
    (hub.drop id).1 = (other.drop id).1 ∧ (hub.drop id).2.Alike (other.drop id).2 := by
  rw [h.eq_with]
  exact ⟨rfl, rfl, rfl, rfl⟩

theorem close (h : hub.Alike other) (channel : String) :
    (hub.close channel).2.Alike (other.close channel).2 := by
  rw [h.eq_with]
  exact ⟨rfl, rfl, rfl⟩

theorem drain (h : hub.Alike other) (id : ReceiverId) :
    (hub.drain id).1 = (other.drain id).1 ∧ (hub.drain id).2.1 = (other.drain id).2.1 ∧
      (hub.drain id).2.2.Alike (other.drain id).2.2 := by
  rw [h.eq_with]
  unfold Hub.drain
  cases hub.receivers.find? (·.id == id) with
  | none => exact ⟨rfl, rfl, rfl, rfl, rfl⟩
  | some r => exact ⟨rfl, rfl, rfl, rfl, rfl⟩

/-- **A use finds the same in two hubs alike**, unless it asks for the tracked channels, and they
are alike after it. -/
theorem use (h : hub.Alike other) (use : Use) :
    (use.isHousekeeping = false → (hub.use use).1 = (other.use use).1) ∧
      (hub.use use).2.Alike (other.use use).2 := by
  cases use with
  | countSubscribers channel =>
    exact ⟨fun _ => congrArg Finding.count (h.subscriberCount channel), h⟩
  | countChannels => exact ⟨by simp [Use.isHousekeeping], h⟩
  | operate op =>
    cases op with
    | subscribe channel =>
      rcases h.subscribe channel with ⟨e, he, he'⟩ | ⟨id, hub', other', hok, hok', halike⟩
      · simp only [Hub.use, apply, he, he']
        exact ⟨fun _ => trivial, h⟩
      · simp only [Hub.use, apply, hok, hok']
        exact ⟨fun _ => trivial, halike⟩
    | publish channel payload =>
      rcases h.publish channel payload with ⟨e, he, he'⟩ | ⟨count, hub', other', hok, hok', halike⟩
      · simp only [Hub.use, apply, he, he']
        exact ⟨fun _ => trivial, h⟩
      · simp only [Hub.use, apply, hok, hok']
        exact ⟨fun _ => trivial, halike⟩
    | receive id =>
      obtain ⟨hreading, halike⟩ := h.receive id
      exact ⟨fun _ => congrArg (Finding.answer <| Answer.read ·) hreading, halike⟩
    | drop id =>
      obtain ⟨hexisted, halike⟩ := h.drop id
      exact ⟨fun _ => congrArg (Finding.answer <| Answer.dropped ·) hexisted, halike⟩
    | close channel => exact ⟨by simp [Use.isHousekeeping], h.close channel⟩
    | prune =>
      exact ⟨by simp [Use.isHousekeeping], (prune hub).trans (h.trans (prune other).symm)⟩

end Alike

/-! ## Histories without prunes -/

theorem Use.isHousekeeping_of_isPrune {use : Use} (h : use.isPrune = true) :
    use.isHousekeeping = true := by
  cases use with
  | operate op => cases op <;> first | rfl | cases h
  | _ => cases h

/-- A use that is a prune leaves the hub alike. -/
theorem Alike.of_isPrune {use : Use} (h : use.isPrune = true) (hub : Hub) :
    (hub.use use).2.Alike hub := by
  cases use with
  | operate op =>
    cases op with
    | prune => exact .prune hub
    | _ => cases h
  | _ => cases h

variable {hub other : Hub}

/-- **Without its prunes a history is the same** to publishers and subscribers, also that of another
hub that is alike. -/
theorem Alike.record (h : hub.Alike other) (uses : List Use) :
    audible (hub.record uses).1 = audible (other.record (uses.filter (!·.isPrune))).1 ∧
      (hub.record uses).2.Alike (other.record (uses.filter (!·.isPrune))).2 := by
  induction uses generalizing hub other with
  | nil => exact ⟨rfl, h⟩
  | cons use rest ih =>
    by_cases hp : use.isPrune = true
    · -- the other history has no such use
      obtain ⟨haudible, halike⟩ := ih ((Alike.of_isPrune hp hub).trans h)
      simp only [Hub.record, audible, hp, Use.isHousekeeping_of_isPrune hp, Bool.not_true,
        Bool.false_eq_true, not_false_eq_true, List.filter_cons_of_neg]
      exact ⟨haudible, halike⟩
    · obtain ⟨hfinding, hnext⟩ := h.use use
      obtain ⟨haudible, halike⟩ := ih hnext
      have hkept : (use :: rest).filter (!·.isPrune) = use :: rest.filter (!·.isPrune) := by
        simp [hp]
      rw [hkept]
      refine ⟨?_, halike⟩
      cases hk : use.isHousekeeping with
      | true =>
        simp only [Hub.record, audible, hk, Bool.not_true, Bool.false_eq_true, not_false_eq_true,
          List.filter_cons_of_neg]
        exact haudible
      | false =>
        simp only [Hub.record, audible, hk, Bool.not_false, List.filter_cons_of_pos, hfinding hk]
        exact congrArg _ haudible

/-- **Prunes are not audible**: histories that differ only in their prunes tell publishers and
subscribers the same. -/
theorem audible_record {uses others : List Use}
    (h : uses.filter (!·.isPrune) = others.filter (!·.isPrune)) :
    audible (hub.record uses).1 = audible (hub.record others).1 ∧
      (hub.record uses).2.Alike (hub.record others).2 := by
  obtain ⟨haudible, halike⟩ := (Alike.refl hub).record uses
  obtain ⟨haudible', halike'⟩ := (Alike.refl hub).record others
  rw [h] at haudible halike
  exact ⟨haudible.trans haudible'.symm, halike.trans halike'.symm⟩

end Custody.Hub
