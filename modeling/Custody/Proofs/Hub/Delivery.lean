import Custody.Proofs.Hub.Receiver
import Mathlib.Data.List.Induction
import Mathlib.Order.Bounds.Basic
/-!
# What a hub delivers

The payloads meant for a receiver are those that are published on its channel between its
subscription and the first close (`Hub.aired`). It keeps the last of them, at most as many as the
hub's capacity: what it has not read is always an end of what has been aired
(`Hub.HasNew.kept_eq_drop`). So the place of a receiver, the position of the first payload that it
keeps, says all about it, and moves on by one at a time: because the payload there is read, or
because it is overrun by so many later ones that the receiver cannot keep it
(`Hub.HasNew.place_snoc`).

The main statement is `Hub.delivery`.
-/

namespace Custody

namespace Hub

/-! ## Histories -/

theorem length_answers (hub : Hub) (ops : List Operation) :
    (hub.run ops).1.length = ops.length := by
  induction ops generalizing hub with
  | nil => rfl
  | cons op rest ih => simp [run_cons, ih]

/-- What one who looks with a receiver is answered in a history. -/
def readings (id : ReceiverId) (ops : List Operation) (answers : List Answer) : List Reading :=
  (ops.zip answers).filterMap fun
    | (.receive other, .read reading) => if other = id then some reading else none
    | _ => none

/-- The payloads that a receiver yields while operations happen. -/
def yielded (hub : Hub) (id : ReceiverId) (ops : List Operation) : List String :=
  (readings id ops (hub.run ops).1).filterMap Reading.payload?

/-- What a receiver would find after some operations. -/
def found (hub : Hub) (id : ReceiverId) (past : List Operation) : Reading :=
  ((hub.run past).2.receive id).1

/-- The payloads published on a channel before it is closed. -/
def aired (channel : String) : List Operation → List String
  | [] => []
  | .publish name payload :: rest =>
    if name = channel then payload :: aired channel rest else aired channel rest
  | .close name :: rest => if name = channel then [] else aired channel rest
  | .subscribe _ :: rest => aired channel rest
  | .receive _ :: rest => aired channel rest
  | .drop _ :: rest => aired channel rest
  | .prune :: rest => aired channel rest

variable {hub : Hub} {channel : String} {id : ReceiverId} {past : List Operation}

/-- What is aired by one more operation. -/
def airs (channel : String) (past : List Operation) : Operation → List String
  | .publish name payload => if name = channel ∧ .close channel ∉ past then [payload] else []
  | .subscribe _ | .receive _ | .drop _ | .close _ | .prune => []

theorem aired_snoc (channel : String) (past : List Operation) (op : Operation) :
    aired channel (past ++ [op]) = aired channel past ++ airs channel past op := by
  induction past with
  | nil => cases op <;> simp [aired, airs]
  | cons first rest ih =>
    cases first <;> cases op <;> grind [aired, airs]

/-! ## One receiver in a history -/

/-- What is known of a receiver that has been attached to a channel and not been dropped. -/
structure Attached (capacity : Nat) (channel : String) (id : ReceiverId) (past : List Operation)
    (r : Receiver) : Prop where
  id_eq : r.id = id
  channel_eq : r.channel = channel
  isOpen_iff : r.isOpen = true ↔ .close channel ∉ past
  suffix : r.pending <:+ aired channel past
  length_le : r.pending.length ≤ capacity

/-- What becomes of an attached receiver by an operation other than its drop. -/
theorem Attached.exists_after? {capacity : Nat} {r : Receiver}
    (h : Attached capacity channel id past r) {op : Operation} (hop : op ≠ .drop id) :
    ∃ next, r.after? capacity op = some next ∧
      (next.isOpen = true ↔ r.isOpen = true ∧ op ≠ .close channel) ∧
      next.pending = if op = .receive id then r.pending.tail
        else Receiver.keepLast capacity (r.pending ++ airs channel past op) := by
  obtain ⟨rfl, rfl, hopen, -, hlength⟩ := h
  have hkeep := Receiver.keepLast_of_length_le hlength
  cases op with
  | subscribe name => exact ⟨r, rfl, by simp, by simp [airs, hkeep]⟩
  | publish name payload =>
    by_cases hl : r.listensOn name = true
    · obtain ⟨ho, hc⟩ : r.isOpen = true ∧ r.channel = name := by
        simpa [Receiver.listensOn] using hl
      subst hc
      exact ⟨r.deliver capacity payload, by simp [Receiver.after?, hl],
        by simp [ho, Receiver.deliver], by simp [airs, hopen.1 ho, Receiver.deliver]⟩
    · have ha : airs r.channel past (.publish name payload) = [] := by
        simp only [airs, ite_eq_right_iff]
        rintro ⟨rfl, hn⟩
        exact absurd (by simp [Receiver.listensOn, hopen.2 hn]) hl
      exact ⟨r, by simp [Receiver.after?, hl], by simp, by simp [ha, hkeep]⟩
  | receive other =>
    by_cases ho : r.id = other
    · subst ho
      exact ⟨r.read.2, by simp [Receiver.after?], by simp, by simp⟩
    · exact ⟨r, by simp [Receiver.after?, ho], by simp, by simp [Ne.symm ho, airs, hkeep]⟩
  | drop other =>
    have ho : r.id ≠ other := fun ho => hop (ho ▸ rfl)
    exact ⟨r, by simp [Receiver.after?, ho], by simp, by simp [airs, hkeep]⟩
  | close name =>
    by_cases hc : r.channel = name
    · exact ⟨{ r with isOpen := false }, by simp [Receiver.after?, hc], by simp [hc],
        by simp [airs, hkeep]⟩
    · exact ⟨r, by simp [Receiver.after?, hc], by simp [Ne.symm hc], by simp [airs, hkeep]⟩
  | prune => exact ⟨r, rfl, by simp, by simp [airs, hkeep]⟩

/-- An operation other than its drop leaves a receiver attached. -/
theorem Attached.after? {capacity : Nat} {r : Receiver} (h : Attached capacity channel id past r)
    {op : Operation} (hop : op ≠ .drop id) :
    ∃ next, r.after? capacity op = some next ∧
      Attached capacity channel id (past ++ [op]) next := by
  obtain ⟨next, ha, hopen, hpending⟩ := h.exists_after? hop
  refine ⟨next, ha, (Receiver.after?_id ha).trans h.id_eq,
    (Receiver.after?_channel ha).trans h.channel_eq, ?_, ?_, ?_⟩
  · rw [hopen, h.isOpen_iff]
    simp [eq_comm]
  · rw [hpending, aired_snoc]
    split
    · next hr =>
      rw [hr]
      simpa [airs] using (List.tail_suffix _).trans h.suffix
    · obtain ⟨front, hfront⟩ := h.suffix
      exact (Receiver.keepLast_suffix _ _).trans ⟨front, by rw [← List.append_assoc, hfront]⟩
  · rw [hpending]
    split
    · rw [List.length_tail]
      exact Nat.le_trans (Nat.sub_le _ _) h.length_le
    · rw [Receiver.length_keepLast]
      exact Nat.min_le_right _ _

/-- What is known of a hub in which a receiver has just been attached to a channel. -/
structure HasNew (hub : Hub) (channel : String) (id : ReceiverId) : Prop where
  sound : hub.Sound
  receiver?_eq : hub.receiver? id = some ⟨id, channel, [], true⟩

theorem id_lt_next_run (hs : hub.Sound) (h : id < hub.next) (ops : List Operation) :
    id < (hub.run ops).2.next := by
  induction ops generalizing hub with
  | nil => exact h
  | cons op rest ih =>
    have hn := (hub.capacity_next_apply op).2
    exact ih (hs.apply op) (hn ▸ Nat.lt_add_right _ h)

theorem HasNew.receiver?_snoc (h : hub.HasNew channel id) (past : List Operation)
    (op : Operation) :
    (hub.run (past ++ [op])).2.receiver? id =
      ((hub.run past).2.receiver? id).bind (·.after? hub.capacity op) := by
  have hid : id < hub.next := h.sound.id_lt _ (mem_of_receiver? h.receiver?_eq)
  rw [run_snoc, receiver?_apply (sound_run h.sound past) op (id_lt_next_run h.sound hid past),
    capacity_run]

/-- **A receiver stays attached until it is dropped.** -/
theorem HasNew.receiver?_run (h : hub.HasNew channel id) (past : List Operation) :
    (.drop id ∉ past ∧ ∃ r, (hub.run past).2.receiver? id = some r ∧
      Attached hub.capacity channel id past r) ∨
    (.drop id ∈ past ∧ (hub.run past).2.receiver? id = none) := by
  induction past using List.reverseRecOn with
  | nil =>
    exact .inl ⟨List.not_mem_nil, _, h.receiver?_eq, rfl, rfl, by simp, List.nil_suffix,
      Nat.zero_le _⟩
  | append_singleton past op ih =>
    rw [h.receiver?_snoc]
    rcases ih with ⟨hd, r, hr, ha⟩ | ⟨hd, hn⟩
    · by_cases hop : op = .drop id
      · subst hop
        exact .inr ⟨by simp, by simp [hr, Receiver.after?, ha.id_eq]⟩
      · obtain ⟨next, hnext, hattached⟩ := ha.after? hop
        exact .inl ⟨by simp [hd, Ne.symm hop], next, by simp [hr, hnext], hattached⟩
    · exact .inr ⟨List.mem_append_left _ hd, by simp [hn]⟩

/-! ## What a receiver yields -/

theorem readings_append (hub : Hub) (id : ReceiverId) (first second : List Operation) :
    readings id (first ++ second) (hub.run (first ++ second)).1 =
      readings id first (hub.run first).1 ++
        readings id second ((hub.run first).2.run second).1 := by
  rw [readings, run_append, List.zip_append (hub.length_answers first).symm,
    List.filterMap_append]
  rfl

theorem readings_singleton (hub : Hub) (id : ReceiverId) (op : Operation) :
    readings id [op] (hub.run [op]).1 = if op = .receive id then [(hub.receive id).1] else [] := by
  cases op with
  | receive other =>
    by_cases ho : other = id
    · subst ho
      simp [readings, run, apply]
    · simp [readings, run, apply, ho]
  | _ => simp [readings, run]

theorem readings_snoc (hub : Hub) (id : ReceiverId) (past : List Operation) (op : Operation) :
    readings id (past ++ [op]) (hub.run (past ++ [op])).1 =
      readings id past (hub.run past).1 ++
        if op = .receive id then [hub.found id past] else [] := by
  rw [readings_append, readings_singleton, found]

theorem yielded_snoc (hub : Hub) (id : ReceiverId) (past : List Operation) (op : Operation) :
    hub.yielded id (past ++ [op]) =
      hub.yielded id past ++
        if op = .receive id then (hub.found id past).payload?.toList else [] := by
  rw [yielded, readings_snoc, List.filterMap_append, ← yielded]
  split
  · cases hub.found id past <;> rfl
  · rfl

theorem found_eq (hub : Hub) (id : ReceiverId) (past : List Operation) :
    hub.found id past = ((hub.run past).2.receiver? id).elim .ended (·.read.1) := by
  have h := answer_receive (hub.run past).2 id
  exact Answer.read.inj h

/-- What a receiver keeps after some operations. -/
def kept (hub : Hub) (id : ReceiverId) (past : List Operation) : List String :=
  ((hub.run past).2.receiver? id).elim [] Receiver.pending

theorem payload?_found (hub : Hub) (id : ReceiverId) (past : List Operation) :
    (hub.found id past).payload? = (hub.kept id past).head? := by
  rw [found_eq, kept]
  cases (hub.run past).2.receiver? id with
  | none => rfl
  | some r => exact r.payload?_read

/-- What is kept after one more operation. -/
theorem HasNew.kept_snoc (h : hub.HasNew channel id) (past : List Operation) {op : Operation}
    (hop : .drop id ∉ past ++ [op]) :
    hub.kept id (past ++ [op]) =
      if op = .receive id then (hub.kept id past).tail
      else Receiver.keepLast hub.capacity (hub.kept id past ++ airs channel past op) := by
  simp only [List.mem_append, List.mem_singleton, not_or] at hop
  rcases h.receiver?_run past with ⟨hd, r, hr, ha⟩ | ⟨hd, -⟩
  · obtain ⟨next, hnext, -, hpending⟩ := ha.exists_after? (Ne.symm hop.2)
    simp [kept, h.receiver?_snoc, hr, hnext, hpending]
  · exact absurd hd hop.1

/-- Nothing is kept by a receiver that has been dropped. -/
theorem HasNew.kept_of_drop (h : hub.HasNew channel id) (hd : .drop id ∈ past) :
    hub.kept id past = [] := by
  rcases h.receiver?_run past with ⟨hn, -⟩ | ⟨-, hn⟩
  · exact absurd hd hn
  · simp [kept, hn]

/-- **What a receiver has yielded and what it keeps is, in this order, part of what has been
aired.** -/
theorem HasNew.yielded_append_kept (h : hub.HasNew channel id) (past : List Operation) :
    (hub.yielded id past ++ hub.kept id past).Sublist (aired channel past) := by
  induction past using List.reverseRecOn with
  | nil => simp [yielded, readings, kept, run, h.receiver?_eq]
  | append_singleton past op ih =>
    have hkept : (hub.kept id (past ++ [op])).Sublist
        (if op = .receive id then (hub.kept id past).tail
          else hub.kept id past ++ airs channel past op) := by
      by_cases hd : .drop id ∈ past ++ [op]
      · rw [h.kept_of_drop hd]
        exact List.nil_sublist _
      · rw [h.kept_snoc past hd]
        split
        · exact List.Sublist.refl _
        · exact (Receiver.keepLast_suffix _ _).sublist
    rw [yielded_snoc, aired_snoc]
    by_cases hop : op = .receive id
    · -- the first payload that was kept is now the last that was yielded
      rw [if_pos hop] at hkept ⊢
      have hsplit : (hub.kept id past).head?.toList ++ (hub.kept id past).tail =
          hub.kept id past := by
        cases hub.kept id past <;> rfl
      have hmove := hkept.append_left (hub.yielded id past ++ (hub.kept id past).head?.toList)
      rw [List.append_assoc _ _ (hub.kept id past).tail, hsplit, ← payload?_found] at hmove
      exact (hmove.trans ih).trans (List.sublist_append_left _ _)
    · rw [if_neg hop, List.append_nil]
      rw [if_neg hop] at hkept
      have hmore := hkept.append_left (hub.yielded id past)
      rw [← List.append_assoc] at hmore
      exact hmore.trans (ih.append_right _)

/-! ## The place of a receiver -/

/-- The position, among the payloads aired to a receiver, of the first that it keeps. -/
def place (hub : Hub) (channel : String) (id : ReceiverId) (past : List Operation) : Nat :=
  (aired channel past).length - (hub.kept id past).length

theorem HasNew.kept_eq_drop (h : hub.HasNew channel id) (past : List Operation) :
    hub.kept id past = (aired channel past).drop (hub.place channel id past) ∧
      (hub.kept id past).length ≤ hub.capacity := by
  rcases h.receiver?_run past with ⟨-, r, hr, ha⟩ | ⟨hd, -⟩
  · have hk : hub.kept id past = r.pending := by simp [kept, hr]
    rw [place, hk]
    exact ⟨List.suffix_iff_eq_drop.1 ha.suffix, ha.length_le⟩
  · simp [place, h.kept_of_drop hd]

theorem place_le (hub : Hub) (channel : String) (id : ReceiverId) (past : List Operation) :
    hub.place channel id past ≤ (aired channel past).length :=
  Nat.sub_le ..

/-- No more is kept than the capacity. -/
theorem HasNew.length_aired_le (h : hub.HasNew channel id) (past : List Operation) :
    (aired channel past).length ≤ hub.place channel id past + hub.capacity := by
  have := (h.kept_eq_drop past).2
  unfold place
  omega

/-- **A place moves on by one at a time**: because the payload there is read, or because later ones
overrun it. -/
theorem HasNew.place_snoc (h : hub.HasNew channel id) (past : List Operation) {op : Operation}
    (hd : .drop id ∉ past ++ [op]) :
    if op = .receive id ∧ hub.place channel id past < (aired channel past).length then
      hub.place channel id (past ++ [op]) = hub.place channel id past + 1
    else
      hub.place channel id (past ++ [op]) = hub.place channel id past ∨
        (hub.place channel id (past ++ [op]) = hub.place channel id past + 1 ∧
          hub.place channel id past + hub.capacity < (aired channel (past ++ [op])).length) := by
  obtain ⟨hdrop, hlength⟩ := h.kept_eq_drop past
  have hle : (hub.kept id past).length ≤ (aired channel past).length := by
    rw [hdrop, List.length_drop]
    exact Nat.sub_le ..
  have hkept := congrArg List.length (h.kept_snoc past hd)
  have hairs : (airs channel past op).length ≤ 1 := by
    cases op <;> simp only [airs] <;> first | exact Nat.zero_le _ | (split <;> simp)
  by_cases hop : op = .receive id
  · subst hop
    simp only [if_true, List.length_tail] at hkept
    simp only [place, aired_snoc, airs, List.append_nil, hkept, true_and]
    split <;> omega
  · rw [if_neg hop, Receiver.length_keepLast, List.length_append] at hkept
    simp only [place, aired_snoc, List.length_append, hkept, hop, false_and, if_false]
    omega

/-- While operations happen the receiver is given the payload at a position. -/
def Got (hub : Hub) (id : ReceiverId) (place : List Operation → Nat) (past : List Operation)
    (k : Nat) : Prop :=
  ∃ earlier later payload, past = earlier ++ .receive id :: later ∧
    hub.found id earlier = .payload payload ∧ place earlier = k

/-- How a receiver stands with what has been aired to it. -/
structure Account (hub : Hub) (channel : String) (id : ReceiverId)
    (place : List Operation → Nat) (past : List Operation) : Prop where
  /-- Its place is among the payloads aired to it or after them, and not more than the capacity
  stand from there on. -/
  bounds : place past ≤ (aired channel past).length ∧
    (aired channel past).length ≤ place past + hub.capacity
  /-- It finds the payload at its place. Where there is none it finds nothing, or its end if the
  channel has been closed. -/
  found : hub.found id past = (aired channel past)[place past]?.elim
    (if .close channel ∈ past then .ended else .nothing) .payload
  /-- What it has been given stands before its place, so that nothing is given twice. -/
  lt_place : ∀ k, hub.Got id place past k → k < place past
  /-- What stands before its place has been given to it, or it has been overrun by at least as many
  later payloads as the capacity. -/
  given_or_overrun : ∀ k < place past,
    hub.Got id place past k ∨ k + hub.capacity < (aired channel past).length

theorem Got.append {place : List Operation → Nat} {k : Nat} (h : hub.Got id place past k)
    (later : List Operation) : hub.Got id place (past ++ later) k := by
  obtain ⟨earlier, rest, payload, rfl, hfound, hk⟩ := h
  exact ⟨earlier, rest ++ later, payload, by simp, hfound, hk⟩

theorem HasNew.found_eq_elim (h : hub.HasNew channel id) (hd : .drop id ∉ past) :
    hub.found id past = (aired channel past)[hub.place channel id past]?.elim
      (if .close channel ∈ past then .ended else .nothing) .payload := by
  rcases h.receiver?_run past with ⟨-, r, hr, ha⟩ | ⟨hn, -⟩
  · have hk : hub.kept id past = r.pending := by simp [kept, hr]
    have hhead : r.pending.head? = (aired channel past)[hub.place channel id past]? := by
      rw [← hk, (h.kept_eq_drop past).1, List.head?_drop]
    rw [found_eq, hr, Option.elim_some, Receiver.read_fst, hhead]
    by_cases hc : .close channel ∈ past
    · simp [hc, mt ha.isOpen_iff.1 (not_not.2 hc)]
    · simp [hc, ha.isOpen_iff.2 hc]
  · exact absurd hn hd

theorem HasNew.payload_iff (h : hub.HasNew channel id) (hd : .drop id ∉ past) :
    (∃ payload, hub.found id past = .payload payload) ↔
      hub.place channel id past < (aired channel past).length := by
  rw [h.found_eq_elim hd]
  by_cases hp : hub.place channel id past < (aired channel past).length
  · simp [hp]
  · rw [List.getElem?_eq_none (Nat.not_lt.1 hp), Option.elim_none]
    simp only [hp, iff_false, not_exists]
    intro payload
    split <;> simp

theorem got_snoc_iff {place : List Operation → Nat} {op : Operation} {k : Nat} :
    hub.Got id place (past ++ [op]) k ↔
      hub.Got id place past k ∨
        op = .receive id ∧ (∃ payload, hub.found id past = .payload payload) ∧ place past = k := by
  constructor
  · rintro ⟨earlier, later, payload, hpast, hfound, hk⟩
    rcases later.eq_nil_or_concat with rfl | ⟨front, last, rfl⟩
    · obtain ⟨rfl, hop⟩ := List.append_inj' hpast rfl
      exact .inr ⟨List.singleton_inj.1 hop, ⟨payload, hfound⟩, hk⟩
    · rw [List.concat_eq_append, ← List.cons_append, ← List.append_assoc] at hpast
      obtain ⟨rfl, -⟩ := List.append_inj' hpast rfl
      exact .inl ⟨earlier, front, payload, rfl, hfound, hk⟩
  · rintro (hgot | ⟨rfl, ⟨payload, hfound⟩, hk⟩)
    · exact hgot.append [op]
    · exact ⟨past, [], payload, rfl, hfound, hk⟩

/-- **The account of a receiver**, at every time before its drop. -/
theorem HasNew.account (h : hub.HasNew channel id) (hd : .drop id ∉ past) :
    hub.Account channel id (hub.place channel id) past := by
  refine ⟨⟨place_le .., h.length_aired_le past⟩, h.found_eq_elim hd, ?_, ?_⟩
  · induction past using List.reverseRecOn with
    | nil =>
      rintro k ⟨earlier, later, payload, hpast, -⟩
      simp at hpast
    | append_singleton past op ih =>
      have hd' : .drop id ∉ past := fun hn => hd (List.mem_append_left _ hn)
      have hstep := h.place_snoc past hd
      intro k hk
      rcases got_snoc_iff.1 hk with hgot | ⟨hop, hpayload, rfl⟩
      · have := ih hd' k hgot
        split at hstep <;> omega
      · rw [if_pos ⟨hop, (h.payload_iff hd').1 hpayload⟩] at hstep
        omega
  · induction past using List.reverseRecOn with
    | nil => simp [place, aired]
    | append_singleton past op ih =>
      have hd' : .drop id ∉ past := fun hn => hd (List.mem_append_left _ hn)
      have hstep := h.place_snoc past hd
      have hlonger : (aired channel past).length ≤ (aired channel (past ++ [op])).length := by
        simp [aired_snoc]
      intro k hk
      by_cases hold : k < hub.place channel id past
      · rcases ih hd' k hold with hgot | hover
        · exact .inl (hgot.append [op])
        · exact .inr (Nat.lt_of_lt_of_le hover hlonger)
      · -- the place has moved on just now
        split at hstep
        · next hread =>
          have hkp : hub.place channel id past = k := by omega
          exact .inl (got_snoc_iff.2 (.inr ⟨hread.1, (h.payload_iff hd').2 hread.2, hkp⟩))
        · rcases hstep with hstay | ⟨hmove, hover⟩
          · omega
          · exact .inr (by omega)

/-! ## After the close -/

/-- What is found in so many attempts where these payloads are left and none will come: the payloads
in order, and then the end, however often one looks. -/
def lastReadings : List String → Nat → List Reading
  | _, 0 => []
  | [], n + 1 => .ended :: lastReadings [] n
  | payload :: rest, n + 1 => .payload payload :: lastReadings rest n

/-- A receiver of a closed channel changes only when one looks with it. -/
theorem after?_of_closed {r : Receiver} (hc : r.isOpen = false) {op : Operation}
    (hop : op ≠ .drop r.id) (capacity : Nat) :
    r.after? capacity op = some (if op = .receive r.id then r.read.2 else r) := by
  cases op with
  | publish name payload => simp [Receiver.after?, Receiver.listensOn, hc]
  | receive other => simp [Receiver.after?, eq_comm]
  | drop other =>
    have ho : r.id ≠ other := fun ho => hop (ho ▸ rfl)
    simp [Receiver.after?, ho]
  | close name =>
    obtain ⟨id, channel, pending, isOpen⟩ := r
    simp_all [Receiver.after?]
  | _ => simp [Receiver.after?]

theorem readings_of_closed {r : Receiver} (hs : hub.Sound) (hr : hub.receiver? id = some r)
    (hc : r.isOpen = false) {ops : List Operation} (hd : .drop id ∉ ops) :
    readings id ops (hub.run ops).1 = lastReadings r.pending (ops.count (.receive id)) := by
  induction ops generalizing hub r with
  | nil => simp [readings, lastReadings]
  | cons op rest ih =>
    simp only [List.mem_cons, not_or] at hd
    obtain rfl := id_of_receiver? hr
    have hnext : (hub.apply op).2.receiver? r.id =
        some (if op = .receive r.id then r.read.2 else r) := by
      rw [receiver?_apply hs op (hs.id_lt r (mem_of_receiver? hr)), hr, Option.bind_some,
        after?_of_closed hc (Ne.symm hd.1)]
    have hcons : readings r.id (op :: rest) (hub.run (op :: rest)).1 =
        (if op = .receive r.id then [(hub.receive r.id).1] else []) ++
          readings r.id rest ((hub.apply op).2.run rest).1 := by
      rw [← readings_singleton]
      exact readings_append hub r.id [op] rest
    by_cases hop : op = .receive r.id
    · subst hop
      rw [if_pos rfl] at hnext hcons
      have hfound : (hub.receive r.id).1 = r.read.1 := by
        have := answer_receive hub r.id
        rw [hr] at this
        exact Answer.read.inj this
      have hrest : readings r.id rest ((hub.apply (.receive r.id)).2.run rest).1 =
          lastReadings r.pending.tail (rest.count (.receive r.id)) := by
        rw [← r.read_pending]
        exact ih (hs.apply _) hnext (r.read_isOpen.trans hc) hd.2
      rw [hcons, hrest, hfound, Receiver.read_fst, hc, List.count_cons_self]
      cases r.pending <;> rfl
    · rw [if_neg hop] at hnext hcons
      rw [hcons, List.nil_append, List.count_cons_of_ne hop]
      exact ih (hs.apply op) hnext hc hd.2

/-! ## The capacity -/

theorem isLeast_powerAtLeast (k : Nat) :
    IsLeast {b | max k 1 ≤ b ∧ b.isPowerOfTwo} (powerAtLeast k) := by
  unfold powerAtLeast
  split
  · next h =>
    refine ⟨⟨by omega, 0, rfl⟩, fun b hb => ?_⟩
    have := hb.1
    omega
  · next h =>
    rw [Nat.one_shiftLeft]
    have hlt : k - 1 < 2 ^ ((k - 1).log2 + 1) := Nat.lt_log2_self
    refine ⟨⟨by omega, _, rfl⟩, ?_⟩
    rintro b ⟨hb, e, rfl⟩
    exact Nat.pow_le_pow_right (by decide) ((Nat.log2_lt (by omega)).2 (by omega))

/-! ## Delivery -/

/-- A receiver that has just been attached to a channel of a hub that arises by operations. -/
theorem hasNew_of_subscribe {capacity : Nat} {earlier : List Operation}
    (h : ((new capacity).run earlier).2.subscribe channel = .ok (id, hub)) :
    hub.HasNew channel id ∧ hub.capacity = powerAtLeast capacity := by
  have hs := sound_run (sound_new capacity) earlier
  obtain ⟨-, -, hhub, hr⟩ := receiver?_subscribe hs h
  refine ⟨⟨hhub ▸ hs.apply _, hr⟩, ?_⟩
  rw [hhub, (capacity_next_apply _ _).1, capacity_run]
  rfl

/-- **What a hub delivers.** Take any hub that arises by operations, and a receiver that is attached
to a channel of it. At any later time the payloads that it has yielded are, in order, among those
published on its channel since then and before the first close. It has a place among those. Of the
payloads before its place each has been given to it once, or has been overrun by at least as many
later ones as the capacity, which is the least power of two that is not below the number the hub was
made with. From its place on it keeps all; after a close it yields just these, and then it finds its
end for ever. -/
theorem delivery {capacity : Nat} {earlier : List Operation} {channel : String} {id : ReceiverId}
    {hub : Hub} (h : ((new capacity).run earlier).2.subscribe channel = .ok (id, hub)) :
    IsLeast {b | max capacity 1 ≤ b ∧ b.isPowerOfTwo} hub.capacity ∧
    (∀ past, (hub.yielded id past).Sublist (aired channel past)) ∧
    ∃ place : List Operation → Nat,
      (∀ past, .drop id ∉ past → hub.Account channel id place past) ∧
      ∀ past future, .close channel ∈ past → .drop id ∉ past ++ future →
        readings id future ((hub.run past).2.run future).1 =
          lastReadings ((aired channel past).drop (place past)) (future.count (.receive id)) := by
  obtain ⟨hnew, hcapacity⟩ := hasNew_of_subscribe h
  refine ⟨hcapacity ▸ isLeast_powerAtLeast capacity, fun past => ?_,
    hub.place channel id, fun past hd => hnew.account hd, fun past future hclose hd => ?_⟩
  · exact (List.sublist_append_left _ _).trans (hnew.yielded_append_kept past)
  · rw [List.mem_append, not_or] at hd
    rcases hnew.receiver?_run past with ⟨-, r, hr, ha⟩ | ⟨hn, -⟩
    · have hopen : r.isOpen = false := by
        simpa using mt ha.isOpen_iff.1 (not_not.2 hclose)
      have hkept : hub.kept id past = r.pending := by simp [kept, hr]
      rw [readings_of_closed (sound_run hnew.sound past) hr hopen hd.2,
        ← (hnew.kept_eq_drop past).1, hkept]
    · exact absurd hn hd.1

/-- A hub with a listener, and one who has come late. -/
def twoListeners : Hub where
  capacity := 2
  channels := ["sign:b", "sign:a"]
  receivers := [⟨0, "sign:b", [], true⟩, ⟨1, "sign:a", [], true⟩]
  next := 2

/-- Of three payloads published to a receiver that keeps two the first is overrun, and one from
before its time is not aired to it. After the close it finds the other two, and its end. -/
theorem delivery_of_overrun :
    ((new 2).run [.subscribe "sign:b", .publish "sign:a" "early"]).2.subscribe "sign:a" =
        .ok (1, twoListeners) ∧
      readings 1 [.receive 1, .publish "sign:a" "late", .receive 1, .receive 1]
          ((twoListeners.run [.publish "sign:a" "x", .publish "sign:a" "y",
            .publish "sign:b" "other", .publish "sign:a" "z", .close "sign:a"]).2.run
            [.receive 1, .publish "sign:a" "late", .receive 1, .receive 1]).1 =
        [.payload "y", .payload "z", .ended] := by
  have h : ((new 2).run [.subscribe "sign:b", .publish "sign:a" "early"]).2.subscribe "sign:a" =
      .ok (1, twoListeners) := rfl
  refine ⟨h, ?_⟩
  obtain ⟨-, -, place, haccount, hlast⟩ := delivery h
  specialize haccount [.publish "sign:a" "x", .publish "sign:a" "y", .publish "sign:b" "other",
    .publish "sign:a" "z", .close "sign:a"] (by decide)
  have haired : aired "sign:a" [.publish "sign:a" "x", .publish "sign:a" "y",
      .publish "sign:b" "other", .publish "sign:a" "z", .close "sign:a"] = ["x", "y", "z"] := rfl
  rw [hlast _ _ (by decide) (by decide), haired]
  -- the second payload is what is found first, so its position is the place
  have hfound := haccount.found
  have hbounds := haccount.bounds
  rw [haired] at hfound hbounds
  generalize place _ = k at hfound hbounds ⊢
  rw [show twoListeners.found 1 _ = .payload "y" from rfl] at hfound
  obtain rfl : k = 1 := by
    obtain rfl | rfl | rfl | rfl : k = 0 ∨ k = 1 ∨ k = 2 ∨ k = 3 := by
      have : k ≤ 3 := hbounds.1
      omega
    all_goals first | rfl | simp at hfound
  rfl

end Hub

end Custody
