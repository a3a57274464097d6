import Custody.Proofs.Fleet.Play
/-!
# Isolation

What happens to a ceremony in a fleet is decided by what happens on its own channel and by its own
turns. Two runs are alike when they are about the same ceremony, have come as far and have receivers
that keep the same payloads (`Run.Alike`); what concerns a run keeps it alike to another that meets
the same, and all else keeps it alike to one that does not (`Fleet.Alike.play_filter`). So
everything on other channels can be taken out of a play, and so can the other ceremonies
(`isolation`).
-/

namespace Custody

open Ceremony

/-! ## Runs that are alike -/

/-- The receivers with these numbers differ in nothing else. -/
inductive Hub.SameReceiver (hub hub' : Hub) : Option ReceiverId → Option ReceiverId → Prop
  | none : SameReceiver hub hub' none none
  | some {a b : ReceiverId} {r : Receiver} (h : hub.receiver? a = some r)
    (h' : hub'.receiver? b = some { r with id := b }) : SameReceiver hub hub' (some a) (some b)

theorem Hub.SameReceiver.symm {hub hub' : Hub} {a b : Option ReceiverId}
    (h : hub.SameReceiver hub' a b) : hub'.SameReceiver hub b a := by
  cases h with
  | none => exact .none
  | @some a b r h h' =>
    obtain rfl := Hub.id_of_receiver? h
    exact .some h' h

theorem Hub.SameReceiver.isSome_eq {hub hub' : Hub} {a b : Option ReceiverId}
    (h : hub.SameReceiver hub' a b) : a.isSome = b.isSome := by
  cases h <;> rfl

/-- An operation that is not about a number does the same to receivers that differ in theirs. -/
theorem Receiver.after?_withId (op : Outside) (r : Receiver) (capacity : Nat) (id : ReceiverId) :
    { r with id := id }.after? capacity op.operation =
      (r.after? capacity op.operation).map fun r => { r with id := id } := by
  cases op with
  | publish name payload =>
    by_cases hl : r.listensOn name = true
    · have hl' : { r with id := id }.listensOn name = true := hl
      simp [Outside.operation, after?, hl, hl', deliver]
    · have hl' : ¬ { r with id := id }.listensOn name = true := hl
      simp [Outside.operation, after?, hl, hl']
  | close name =>
    by_cases hc : r.channel = name <;> simp [Outside.operation, after?, hc]
  | prune => rfl

/-- A receiver with another number finds the same. -/
theorem Receiver.read_withId (r : Receiver) (id : ReceiverId) :
    { r with id := id }.read = (r.read.1, { r.read.2 with id := id }) := by
  unfold read
  split <;> simp_all

namespace Run

/-- The runs are about the same ceremony and have come as far, and their receivers, each as its own
hub has it, differ only in their numbers. -/
structure Alike (hub : Hub) (run : Run) (hub' : Hub) (run' : Run) : Prop where
  capacity_eq : hub.capacity = hub'.capacity
  ceremony_eq : run.ceremony = run'.ceremony
  phase_eq : run.phase = run'.phase
  receiver : hub.SameReceiver hub' run.receiver run'.receiver

variable {hub hub' : Hub} {run run' : Run}

theorem Alike.symm (h : Alike hub run hub' run') : Alike hub' run' hub run :=
  ⟨h.capacity_eq.symm, h.ceremony_eq.symm, h.phase_eq.symm, h.receiver.symm⟩

/-- The same event keeps runs alike. -/
theorem Alike.advance (h : Alike hub run hub' run') (e : Event) :
    Alike (Fleet.advance hub run e).2.1 (Fleet.advance hub run e).2.2
      (Fleet.advance hub' run' e).2.1 (Fleet.advance hub' run' e).2.2 := by
  have hstep : run'.ceremony.step run'.phase e = run.ceremony.step run.phase e := by
    rw [h.ceremony_eq, h.phase_eq]
  rw [advance_eq, advance_eq, hstep]
  have hcapacity (hub : Hub) (receiver : Option ReceiverId) :
      (receiver.elim hub fun id => (hub.apply (.drop id)).2).capacity = hub.capacity := by
    cases receiver with
    | none => rfl
    | some id => exact (hub.capacity_next_apply _).1
  split
  · exact ⟨by rw [hcapacity, hcapacity, h.capacity_eq], h.ceremony_eq, rfl, .none⟩
  · exact ⟨h.capacity_eq, h.ceremony_eq, rfl, h.receiver⟩

theorem Alike.attach (h : Alike hub run hub' run') (hs : hub.Sound) (hs' : hub'.Sound) :
    Alike (run.attach hub).1 (run.attach hub).2 (run'.attach hub').1 (run'.attach hub').2 := by
  have hchannel : run'.channel = run.channel := by rw [channel, channel, h.ceremony_eq]
  simp only [Run.attach, ← h.phase_eq, hchannel]
  split
  · cases hf : ChannelName.fault? run.channel with
    | some fault =>
      simp only [Hub.subscribe, hf]
      exact h.advance _
    | none =>
      have hv := ChannelName.fault?_eq_none_iff.1 hf
      obtain ⟨next, hsub⟩ := hub.exists_subscribe hv
      obtain ⟨next', hsub'⟩ := hub'.exists_subscribe hv
      obtain ⟨-, -, rfl, hnew⟩ := Hub.receiver?_subscribe hs hsub
      obtain ⟨-, -, rfl, hnew'⟩ := Hub.receiver?_subscribe hs' hsub'
      rw [hsub, hsub']
      have hattached : Alike (hub.apply (.subscribe run.channel)).2
          { run with receiver := some hub.next } (hub'.apply (.subscribe run.channel)).2
          { run' with phase := run.phase, receiver := some hub'.next } := by
        refine ⟨?_, h.ceremony_eq, rfl, .some hnew hnew'⟩
        rw [(hub.capacity_next_apply _).1, (hub'.capacity_next_apply _).1, h.capacity_eq]
      exact hattached.advance .attached
  · exact h

theorem Alike.look (h : Alike hub run hub' run') (hs : hub.Sound) (hs' : hub'.Sound) :
    Alike (run.look hub).1 (run.look hub).2 (run'.look hub').1 (run'.look hub').2 := by
  have hreceiver := h.receiver
  by_cases hw : run.phase = .waiting ∧ run.receiver.isSome = true
  · obtain ⟨hp, hsome⟩ := hw
    have hp' : run'.phase = .waiting := h.phase_eq.symm.trans hp
    generalize hid : run.receiver = held, hid' : run'.receiver = held' at hreceiver
    cases hreceiver with
    | none => simp [hid] at hsome
    | @some a b r ha hb =>
      have hread : Alike (hub.apply (.receive a)).2 run (hub'.apply (.receive b)).2 run' := by
        refine ⟨?_, h.ceremony_eq, h.phase_eq, hid ▸ hid' ▸ .some ?_
          (?_ : _ = some { r.read.2 with id := b })⟩
        · rw [(hub.capacity_next_apply _).1, (hub'.capacity_next_apply _).1, h.capacity_eq]
        · rw [Hub.receiver?_apply_of_receiver? hs ha]
          simp [Receiver.after?, Hub.id_of_receiver? ha]
        · rw [Hub.receiver?_apply_of_receiver? hs' hb]
          simp [Receiver.after?, Receiver.read_withId]
      have hfound : { r with id := b }.read.1 = r.read.1 := by rw [Receiver.read_withId]
      rw [look_of_waiting hp hid ha, look_of_waiting hp' hid' hb, hfound]
      cases r.read.1 with
      | payload text => exact hread.advance (.message text)
      | nothing => exact hread
      | ended => exact hread.advance .ended
  · have hw' : ¬ (run'.phase = .waiting ∧ run'.receiver.isSome = true) := by
      rwa [← h.phase_eq, ← hreceiver.isSome_eq]
    rw [look_of_not_waiting hub hw, look_of_not_waiting hub' hw']
    exact h

/-- The same turn keeps runs alike. -/
theorem Alike.take (h : Alike hub run hub' run') (hs : hub.Sound) (hs' : hub'.Sound) (t : Turn) :
    Alike (run.take hub t).1 (run.take hub t).2 (run'.take hub' t).1 (run'.take hub' t).2 := by
  cases t with
  | attach => exact h.attach hs hs'
  | signal s => exact h.advance s.event
  | look => exact h.look hs hs'

end Run

/-! ## Fleets that are alike for one run -/

namespace Fleet

/-- What happens concerns the run with this number and channel: it is on its channel, or the run's
turn. -/
def Act.concerns (channel : String) (id : Nat) : Act → Bool
  | .outside (.publish name _) => name == channel
  | .outside (.close name) => name == channel
  | .outside .prune => false
  | .turn number _ => number == id

/-- Two fleets in order, in which the runs with this number are about this channel and alike. -/
structure Alike (channel : String) (id : Nat) (fleet fleet' : Fleet) : Prop where
  inOrder : fleet.InOrder
  inOrder' : fleet'.InOrder
  runs : ∃ run run', fleet.run? id = some run ∧ fleet'.run? id = some run' ∧
    run.channel = channel ∧ Run.Alike fleet.hub run fleet'.hub run'

variable {channel : String} {id : Nat} {fleet fleet' : Fleet} {a : Act}

theorem Alike.symm (h : Alike channel id fleet fleet') : Alike channel id fleet' fleet := by
  obtain ⟨run, run', hrun, hrun', hc, halike⟩ := h.runs
  refine ⟨h.inOrder', h.inOrder, run', run, hrun', hrun, ?_, halike.symm⟩
  rw [← hc, Run.channel, Run.channel, halike.ceremony_eq]

/-- What others do on other channels leaves a receiver as it is. -/
theorem after?_of_not_concerns {op : Outside} (h : Act.concerns channel id (.outside op) = false)
    {r : Receiver} (hr : r.channel = channel) (capacity : Nat) :
    r.after? capacity op.operation = some r := by
  cases op with
  | publish name payload =>
    have hne : name ≠ channel := by simpa [Act.concerns] using h
    simp [Outside.operation, Receiver.after?, Receiver.listensOn, hr, Ne.symm hne]
  | close name =>
    have hne : name ≠ channel := by simpa [Act.concerns] using h
    simp [Outside.operation, Receiver.after?, hr, Ne.symm hne]
  | prune => rfl

/-- **What does not concern a run** leaves it alone: the run, and its receiver. -/
theorem InOrder.act_of_not_concerns (h : fleet.InOrder) {run : Run}
    (hrun : fleet.run? id = some run) (ha : a.concerns run.channel id = false) :
    (fleet.act a).run? id = some run ∧ (fleet.act a).hub.capacity = fleet.hub.capacity ∧
      ∀ receiver r, run.receiver = some receiver → fleet.hub.receiver? receiver = some r →
        (fleet.act a).hub.receiver? receiver = some r := by
  cases a with
  | outside op =>
    refine ⟨hrun, (fleet.hub.capacity_next_apply _).1, fun receiver r hr hget => ?_⟩
    obtain ⟨r', hget', hc⟩ := (h.bound id run hrun).receiver?_eq receiver hr
    obtain rfl := Option.some.inj (hget.symm.trans hget')
    exact (Hub.receiver?_apply_of_receiver? h.sound hget _).trans (after?_of_not_concerns ha hc _)
  | turn number t =>
    have hne : number ≠ id := by simpa [Act.concerns] using ha
    cases hother : fleet.run? number with
    | none =>
      rw [act_turn_of_none hother]
      exact ⟨hrun, rfl, fun _ _ _ hget => hget⟩
    | some other =>
      obtain ⟨hhub, -, hothers⟩ := act_turn hother t
      have htook := Run.took_take h.sound (h.bound number other hother) t
      refine ⟨(hothers id (Ne.symm hne)).trans hrun, hhub ▸ htook.capacity_eq,
        fun receiver r hr hget => ?_⟩
      rw [hhub]
      exact htook.receiver?_eq h.sound hget (h.receiver_ne hrun hother (Ne.symm hne) hr)

/-- What does not concern a run keeps it alike to one to which it does not happen. -/
theorem Alike.act_left (h : Alike channel id fleet fleet') (ha : a.concerns channel id = false) :
    Alike channel id (fleet.act a) fleet' := by
  obtain ⟨run, run', hrun, hrun', rfl, halike⟩ := h.runs
  obtain ⟨hself, hcapacity, hreceiver⟩ := h.inOrder.act_of_not_concerns hrun ha
  refine ⟨h.inOrder.act a, h.inOrder', run, run', hself, hrun', rfl,
    hcapacity.trans halike.capacity_eq, halike.ceremony_eq, halike.phase_eq, ?_⟩
  have hsame := halike.receiver
  generalize hheld : run.receiver = held, run'.receiver = held' at hsame
  cases hsame with
  | none => exact .none
  | @some number number' r hget hget' => exact .some (hreceiver number r hheld hget) hget'

/-- What concerns a run keeps it alike to one to which the same happens. -/
theorem Alike.act (h : Alike channel id fleet fleet') (ha : a.concerns channel id = true) :
    Alike channel id (fleet.act a) (fleet'.act a) := by
  obtain ⟨run, run', hrun, hrun', hc, halike⟩ := h.runs
  cases a with
  | outside op =>
    refine ⟨h.inOrder.act _, h.inOrder'.act _, run, run', hrun, hrun', hc, ?_, halike.ceremony_eq,
      halike.phase_eq, ?_⟩
    · exact (fleet.hub.capacity_next_apply _).1.trans
        (halike.capacity_eq.trans (fleet'.hub.capacity_next_apply _).1.symm)
    have hsame := halike.receiver
    generalize hheld : run.receiver = held, run'.receiver = held' at hsame
    cases hsame with
    | none => exact .none
    | @some number number' r hget hget' =>
      obtain ⟨next, hnext, -⟩ := exists_after?_operation op r fleet.hub.capacity
      refine .some (r := next) ?_ ?_
      · exact (Hub.receiver?_apply_of_receiver? h.inOrder.sound hget _).trans hnext
      · refine (Hub.receiver?_apply_of_receiver? h.inOrder'.sound hget' _).trans ?_
        rw [Receiver.after?_withId, ← halike.capacity_eq, hnext]
        rfl
  | turn number t =>
    obtain rfl : number = id := by simpa [Act.concerns] using ha
    obtain ⟨hhub, hself, -⟩ := act_turn hrun t
    obtain ⟨hhub', hself', -⟩ := act_turn hrun' t
    refine ⟨h.inOrder.act _, h.inOrder'.act _, _, _, hself, hself',
      (run.take_channel fleet.hub t).trans hc, ?_⟩
    rw [hhub, hhub']
    exact halike.take h.inOrder.sound h.inOrder'.sound t

/-- **Two plays that agree in what concerns a run** keep it alike. -/
theorem Alike.play_filter (h : Alike channel id fleet fleet') (keep : Act → Bool)
    (hkeep : ∀ a : Act, a.concerns channel id = true → keep a = true) (acts : List Act) :
    Alike channel id (fleet.play acts) (fleet'.play (acts.filter keep)) := by
  induction acts generalizing fleet fleet' with
  | nil => exact h
  | cons a rest ih =>
    cases hc : a.concerns channel id with
    | true =>
      rw [List.filter_cons_of_pos (hkeep a hc)]
      exact ih (h.act hc)
    | false =>
      cases hk : keep a with
      | true =>
        rw [List.filter_cons_of_pos hk]
        exact ih ((h.act_left hc).symm.act_left hc).symm
      | false =>
        rw [List.filter_cons_of_neg (by simp [hk])]
        exact ih (h.act_left hc)

end Fleet

/-! ## What a run hears -/

namespace Run

/-- The payload that a run is given in a turn. -/
def heard? (hub : Hub) (run : Run) : Turn → Option String
  | .look =>
    match run.phase, run.receiver with
    | .waiting, some receiver => (hub.receive receiver).1.payload?
    | _, _ => none
  | .attach => none
  | .signal _ => none

/-- What the receiver of a run keeps. -/
def kept (hub : Hub) (run : Run) : List String :=
  (run.receiver.bind hub.receiver?).elim [] Receiver.pending

variable {hub hub' : Hub} {run run' : Run}

theorem kept_of_receiver? {id : ReceiverId} {r : Receiver} (hid : run.receiver = some id)
    (hr : hub.receiver? id = some r) : run.kept hub = r.pending := by
  simp [kept, hid, hr]

theorem kept_advance (hub : Hub) (run : Run) (e : Event) :
    ((Fleet.advance hub run e).2.2.kept (Fleet.advance hub run e).2.1).Sublist (run.kept hub) := by
  rw [advance_eq]
  split
  · exact List.nil_sublist _
  · exact List.Sublist.refl _

/-- What a run is given in a turn is the first that its receiver has kept, which keeps the rest. -/
theorem heard?_append_kept (hs : hub.Sound) (hb : run.Bound hub) (t : Turn) :
    ((run.heard? hub t).toList ++ (run.take hub t).2.kept (run.take hub t).1).Sublist
      (run.kept hub) := by
  cases t with
  | attach =>
    simp only [take, attach, heard?, Option.toList_none, List.nil_append]
    split
    · split
      · exact kept_advance ..
      · next id after hsub =>
        obtain ⟨-, -, -, hnew⟩ := Hub.receiver?_subscribe hs hsub
        have hempty : kept after { run with receiver := some id } = [] := by simp [kept, hnew]
        exact (hempty ▸ kept_advance ..).trans (List.nil_sublist _)
    · exact List.Sublist.refl _
  | signal s => exact kept_advance ..
  | look =>
    by_cases hw : run.phase = .waiting ∧ run.receiver.isSome = true
    · obtain ⟨hp, hsome⟩ := hw
      obtain ⟨id, hid⟩ := Option.isSome_iff_exists.1 hsome
      obtain ⟨r, hr, -⟩ := hb.receiver?_eq id hid
      have hbefore : run.kept hub = r.pending := by simp [kept, hid, hr]
      have hafter : run.kept (hub.apply (.receive id)).2 = r.pending.tail := by
        simp [kept, hid, Hub.receiver?_apply_of_receiver? hs hr, Receiver.after?,
          Hub.id_of_receiver? hr]
      have hheard : run.heard? hub .look = r.pending.head? := by
        simp [heard?, hp, hid, Hub.receive_eq hr, Receiver.payload?_read]
      have hlooked : ((run.look hub).2.kept (run.look hub).1).Sublist r.pending.tail := by
        rw [← hafter, look_of_waiting hp hid hr]
        cases r.read.1 with
        | payload text => exact kept_advance ..
        | nothing => exact List.Sublist.refl _
        | ended => exact kept_advance ..
      rw [hbefore, hheard]
      refine (hlooked.append_left _).trans ?_
      cases r.pending <;> simp
    · have hheard : run.heard? hub .look = none := by
        simp only [heard?]
        split
        · next hp hr => exact absurd ⟨hp, by rw [hr]; rfl⟩ hw
        · rfl
      rw [take, look_of_not_waiting hub hw, hheard]
      exact List.Sublist.refl _

end Run

namespace Fleet

/-- The payload that others publish on a channel. -/
def Act.payload? (channel : String) : Act → Option String
  | .outside (.publish name payload) => if name = channel then some payload else none
  | .outside (.close _) => none
  | .outside .prune => none
  | .turn _ _ => none

/-- The payload that a run is given when something happens. -/
def heard? (fleet : Fleet) (id : Nat) : Act → Option String
  | .outside _ => none
  | .turn number t => if number = id then (fleet.run? id).bind (·.heard? fleet.hub t) else none

/-- The payloads that a run is given while things happen, first to last. -/
def heard (fleet : Fleet) (id : Nat) : List Act → List String
  | [] => []
  | a :: rest => (fleet.heard? id a).toList ++ (fleet.act a).heard id rest

variable {channel : String} {id : Nat} {fleet : Fleet} {run : Run}

/-- What does not concern a run leaves what is kept for it as it is. -/
theorem InOrder.kept_act (h : fleet.InOrder) (hrun : fleet.run? id = some run) {a : Act}
    (ha : a.concerns run.channel id = false) :
    (fleet.act a).run? id = some run ∧ run.kept (fleet.act a).hub = run.kept fleet.hub := by
  obtain ⟨hself, -, hreceiver⟩ := h.act_of_not_concerns hrun ha
  refine ⟨hself, ?_⟩
  cases hid : run.receiver with
  | none => simp [Run.kept, hid]
  | some receiver =>
    obtain ⟨r, hr, -⟩ := (h.bound id run hrun).receiver?_eq receiver hid
    rw [Run.kept_of_receiver? hid hr, Run.kept_of_receiver? hid (hreceiver receiver r hid hr)]

/-- What is published on a receiver's channel may be added to what it keeps. -/
theorem pending_after?_operation {op : Outside} {r next : Receiver} {capacity : Nat}
    (h : r.after? capacity op.operation = some next) (hr : r.channel = channel) :
    next.pending.Sublist (r.pending ++ (Act.payload? channel (.outside op)).toList) := by
  cases op with
  | publish name payload =>
    obtain rfl := Option.some.inj h
    by_cases hl : r.listensOn name = true
    · have hn : name = channel := by
        simp only [Receiver.listensOn, Bool.and_eq_true, beq_iff_eq] at hl
        rw [← hl.2, hr]
      rw [if_pos hl]
      simpa [Act.payload?, hn, Receiver.deliver] using (Receiver.keepLast_suffix _ _).sublist
    · rw [if_neg hl]
      exact List.sublist_append_left _ _
  | close name =>
    obtain rfl := Option.some.inj h
    simp only [Act.payload?, Option.toList_none, List.append_nil]
    split <;> exact List.Sublist.refl _
  | prune =>
    obtain rfl := Option.some.inj h
    simp [Act.payload?]

/-- **What one thing that happens brings to a run.** What it is given, and what is kept for it then,
is part of what was kept before and what is published on its channel now. -/
theorem InOrder.heard?_append_kept (h : fleet.InOrder) (hrun : fleet.run? id = some run)
    (hc : run.channel = channel) (a : Act) :
    ∃ run', (fleet.act a).run? id = some run' ∧ run'.channel = channel ∧
      ((fleet.heard? id a).toList ++ run'.kept (fleet.act a).hub).Sublist
        (run.kept fleet.hub ++ (a.payload? channel).toList) := by
  have hb := h.bound id run hrun
  cases a with
  | outside op =>
    refine ⟨run, hrun, hc, ?_⟩
    simp only [heard?, Option.toList_none, List.nil_append]
    cases hr : run.receiver with
    | none => simp [Run.kept, hr]
    | some receiver =>
      obtain ⟨r, hget, hchannel⟩ := hb.receiver?_eq receiver hr
      obtain ⟨next, hnext, -⟩ := exists_after?_operation op r fleet.hub.capacity
      have hget' : (fleet.act (.outside op)).hub.receiver? receiver = some next :=
        (Hub.receiver?_apply_of_receiver? h.sound hget _).trans hnext
      have hkept : run.kept (fleet.act (.outside op)).hub = next.pending := by
        simp [Run.kept, hr, hget']
      rw [hkept, Run.kept, hr, Option.bind_some, hget, Option.elim_some]
      exact pending_after?_operation hnext (hchannel.trans hc)
  | turn number t =>
    simp only [Act.payload?, Option.toList_none, List.append_nil]
    by_cases hn : number = id
    · subst hn
      obtain ⟨hhub, hself, -⟩ := act_turn hrun t
      refine ⟨_, hself, (run.take_channel fleet.hub t).trans hc, ?_⟩
      rw [hhub]
      simpa [heard?, hrun] using Run.heard?_append_kept h.sound hb t
    · have hconcerns : Act.concerns run.channel id (.turn number t) = false := by
        simpa [Act.concerns] using hn
      obtain ⟨hself, hkept⟩ := h.kept_act hrun hconcerns
      exact ⟨run, hself, hc, by simp [heard?, hn, hkept]⟩

/-- **A run hears only what is published on its channel**, and what its receiver has kept. -/
theorem InOrder.heard_sublist (h : fleet.InOrder) (hrun : fleet.run? id = some run)
    (hc : run.channel = channel) (acts : List Act) :
    (fleet.heard id acts).Sublist
      (run.kept fleet.hub ++ acts.filterMap (Act.payload? channel)) := by
  induction acts generalizing fleet run with
  | nil => exact List.nil_sublist _
  | cons a rest ih =>
    obtain ⟨run', hrun', hc', hstep⟩ := h.heard?_append_kept hrun hc a
    have hrest := (ih (h.act a) hrun' hc').append_left (fleet.heard? id a).toList
    have hnow := hstep.append_right (rest.filterMap (Act.payload? channel))
    simp only [List.append_assoc] at hnow
    have hsplit : (a :: rest).filterMap (Act.payload? channel) =
        (a.payload? channel).toList ++ rest.filterMap (Act.payload? channel) := by
      cases hp : a.payload? channel <;> simp [hp]
    rw [heard, hsplit]
    exact hrest.trans hnow

/-! ## Taking the others out -/

/-- How far a run has come. -/
def phase? (fleet : Fleet) (id : Nat) : Option Phase :=
  (fleet.run? id).map Run.phase

/-- The channel that something happens on. The turn of a run is on the channel of its ceremony. -/
def Act.channel? (ceremonies : List Ceremony) : Act → Option String
  | .outside (.publish name _) => some name
  | .outside (.close name) => some name
  | .outside .prune => none
  | .turn number _ => ceremonies[number]?.map (·.channel.name)

theorem Act.channel?_of_concerns {ceremonies : List Ceremony} {c : Ceremony}
    (hc : ceremonies[id]? = some c) {a : Act} (h : a.concerns c.channel.name id = true) :
    a.channel? ceremonies = some c.channel.name := by
  cases a with
  | outside op => cases op <;> simp_all [Act.concerns, Act.channel?]
  | turn number t =>
    obtain rfl : number = id := by simpa [Act.concerns] using h
    simp [Act.channel?, hc]

theorem Alike.phase?_eq {fleet' : Fleet} (h : Alike channel id fleet fleet') :
    ∃ phase, fleet.phase? id = some phase ∧ fleet'.phase? id = some phase := by
  obtain ⟨run, run', hrun, hrun', -, halike⟩ := h.runs
  exact ⟨run.phase, by simp [phase?, hrun], by simp [phase?, hrun', halike.phase_eq]⟩

/-- A ceremony that starts alone is in order. -/
theorem run?_launch_new {hub : Hub} {number : Nat} {c : Ceremony} :
    ((Fleet.new hub).launch id c).2.run? number = some run ↔
      number = id ∧ run = ⟨id, c, c.start.1, none⟩ := by
  by_cases hn : id = number
  · simp [run?, launch, Fleet.new, hn, eq_comm]
  · simp [run?, launch, Fleet.new, hn, Ne.symm hn]

theorem inOrder_launch_new {hub : Hub} (hs : hub.Sound) (id : Nat) (c : Ceremony) :
    ((Fleet.new hub).launch id c).2.InOrder := by
  refine ⟨hs, ?_, ?_⟩
  · intro number run h
    obtain ⟨-, rfl⟩ := run?_launch_new.1 h
    exact Run.bound_of_receiver_eq_none rfl c.isAttached_start
  · intro number other run run' h h' _
    exact (run?_launch_new.1 h).1.trans (run?_launch_new.1 h').1.symm

/-- **Isolation.** Take ceremonies with different channels that run over one hub, which may have
been used before, and let their turns and what others do happen in any order. A ceremony comes as
far, and so to the same result, if all that happens on the channels of the other ceremonies is taken
out, their own turns included, and also if it runs alone over a new hub where only what happens on
its own channel is left. All payloads that it is given have been published on its channel, in their
order. -/
theorem isolation {capacity : Nat} {earlier : List Hub.Operation} {ceremonies : List Ceremony}
    (hd : (ceremonies.map Ceremony.channel).Nodup) {id : Nat} {c : Ceremony}
    (hc : ceremonies[id]? = some c) (acts : List Act) :
    let fleet := launched ((Hub.new capacity).run earlier).2 ceremonies
    let others := (ceremonies.eraseIdx id).map fun other => some other.channel.name
    (∃ phase, (fleet.play acts).phase? id = some phase ∧
      (fleet.play (acts.filter fun a => a.channel? ceremonies ∉ others)).phase? id = some phase ∧
      (((Fleet.new (Hub.new capacity)).launch id c).2.play
        (acts.filter fun a => a.channel? ceremonies = some c.channel.name)).phase? id =
          some phase) ∧
    (fleet.heard id acts).Sublist (acts.filterMap (Act.payload? c.channel.name)) := by
  intro fleet others
  have hs : ((Hub.new capacity).run earlier).2.Sound :=
    Hub.sound_run (Hub.sound_new capacity) earlier
  have horder : fleet.InOrder := inOrder_launched hs hd
  have hrun : fleet.run? id = some ⟨id, c, c.start.1, none⟩ := run?_launched.2 ⟨c, hc, rfl⟩
  have hself : Alike c.channel.name id fleet fleet :=
    ⟨horder, horder, _, _, hrun, hrun, rfl, rfl, rfl, rfl, .none⟩
  have halone : Alike c.channel.name id fleet ((Fleet.new (Hub.new capacity)).launch id c).2 := by
    refine ⟨horder, inOrder_launch_new (Hub.sound_new capacity) id c, _, _, hrun,
      run?_launch_new.2 ⟨rfl, rfl⟩, rfl, ?_, rfl, rfl, .none⟩
    exact (congrArg Hub.capacity (launched_hub_runs _ _).1).trans (Hub.capacity_run _ _)
  refine ⟨?_, ?_⟩
  · have hothers : ∀ a : Act, a.concerns c.channel.name id = true →
        decide (a.channel? ceremonies ∉ others) = true := by
      intro a ha
      rw [decide_eq_true_eq, Act.channel?_of_concerns hc ha]
      intro hmem
      obtain ⟨other, hother, hname⟩ := List.mem_map.1 hmem
      obtain ⟨number, hne, hget⟩ := List.mem_eraseIdx_iff_getElem?.1 hother
      exact hne (index_of_channel hd hget hc (ChannelKey.name_injective (Option.some.inj hname)))
    have hown : ∀ a : Act, a.concerns c.channel.name id = true →
        decide (a.channel? ceremonies = some c.channel.name) = true :=
      fun a ha => decide_eq_true (Act.channel?_of_concerns hc ha)
    obtain ⟨phase, hphase, hphase'⟩ := (hself.play_filter _ hothers acts).phase?_eq
    obtain ⟨other, hother, hother'⟩ := (halone.play_filter _ hown acts).phase?_eq
    obtain rfl := Option.some.inj (hphase.symm.trans hother)
    exact ⟨phase, hphase, hphase', hother'⟩
  · exact horder.heard_sublist hrun rfl acts

/-- A key and a signature of the same session. -/
def twins (session : SessionId) : List Ceremony :=
  [⟨⟨.keygen, session⟩, .initKeygen, .subscribeFirst⟩, ⟨⟨.sign, session⟩, .initSign, .listen⟩]

/-- Turns and payloads of twins, with one payload for each and the second channel closed. -/
def crossing : List Act :=
  [.turn 1 .attach, .turn 0 .attach, .outside (.publish "sign:s1" "theirs"),
    .turn 0 (.signal .acknowledged), .outside (.publish "keygen:s1" "mine"), .turn 1 .look,
    .outside (.close "sign:s1"), .turn 0 .look, .turn 1 .look, .outside .prune,
    .turn 0 (.signal .deadline)]

/-- The key of the session `s1` is made, or not, as if nobody signed in that session. -/
theorem isolation_of_twins :
    ((twins Call.firstWallet.session).map Ceremony.channel).Nodup ∧
      ((launched (Hub.new 4) (twins Call.firstWallet.session)).play crossing).phase? 0 =
        (((Fleet.new (Hub.new 4)).launch 0
          ⟨Call.firstWallet.channel, .initKeygen, .subscribeFirst⟩).2.play
            [.turn 0 .attach, .turn 0 (.signal .acknowledged),
              .outside (.publish "keygen:s1" "mine"), .turn 0 .look,
              .turn 0 (.signal .deadline)]).phase? 0 ∧
      ((launched (Hub.new 4) (twins Call.firstWallet.session)).heard 0 crossing).Sublist
        ["mine"] := by
  have hd : ((twins Call.firstWallet.session).map Ceremony.channel).Nodup := by decide
  obtain ⟨⟨phase, hphase, -, halone⟩, hheard⟩ :=
    @isolation 4 [] _ hd 0 _ rfl crossing
  exact ⟨hd, hphase.trans halone.symm, hheard⟩

end Fleet

end Custody
