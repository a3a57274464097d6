import Custody.Proofs.Fleet.Turn
import Custody.Proofs.Session.Naming
/-!
# Plays

A fleet seen more closely: others do one operation at a time, and a run takes one turn at a time,
in any order (`Fleet.Act`, `Fleet.play`). A play keeps a fleet in order (`Fleet.InOrder`): its hub
is sound, each run is bound to the hub, and no two runs share a channel.
-/

namespace Custody

open Ceremony

/-! ## Channels -/

/-- No channel stands twice in a list of different channels. -/
theorem index_of_channel {ceremonies : List Ceremony} (hd : (ceremonies.map Ceremony.channel).Nodup)
    {id other : Nat} {c c' : Ceremony} (h : ceremonies[id]? = some c)
    (h' : ceremonies[other]? = some c') (hc : c.channel = c'.channel) : id = other := by
  have hlt : id < (ceremonies.map Ceremony.channel).length := by
    simpa using (List.getElem?_eq_some_iff.1 h).1
  refine (List.getElem?_inj hlt hd).1 ?_
  simp [h, h', hc]

namespace Fleet

/-- What happens to a fleet. -/
inductive Act
  /-- Others do something with the hub. -/
  | outside (op : Outside)
  /-- It is the turn of the run with this number. -/
  | turn (id : Nat) (t : Turn)

/-- Lets something happen. -/
def act (fleet : Fleet) : Act → Fleet
  | .outside op => (fleet.perform (.outside [op])).2
  | .turn id .attach => (fleet.perform (.attach id)).2
  | .turn id (.signal s) => (fleet.perform (.event id s.event)).2
  | .turn id .look =>
    match fleet.run? id with
    | none => fleet
    | some run =>
      let (hub, run) := run.look fleet.hub
      { fleet with hub }.put run

/-- Lets things happen in order. -/
def play (fleet : Fleet) (acts : List Act) : Fleet :=
  acts.foldl act fleet

/-- The fleet of ceremonies that start over a hub at a time. Their numbers are their positions. -/
def launched (hub : Hub) (ceremonies : List Ceremony) : Fleet :=
  ceremonies.zipIdx.foldl (fun fleet (c, id) => (fleet.launch id c).2) (.new hub)

variable {fleet : Fleet} {id other : Nat} {run : Run}

/-! ## Runs in a fleet -/

theorem mem_of_run? (h : fleet.run? id = some run) : run ∈ fleet.runs :=
  List.mem_of_find?_eq_some h

theorem id_of_run? (h : fleet.run? id = some run) : run.id = id := by
  simpa using List.find?_some h

/-- The run that has been put in a fleet is found there, if there was one of its number. -/
theorem run?_put_self {old : Run} (h : fleet.run? run.id = some old) :
    (fleet.put run).run? run.id = some run := by
  have hold := id_of_run? h
  rw [run?, put, List.find?_map, Option.map_eq_some_iff]
  refine ⟨old, ?_, if_pos hold⟩
  rw [← h, run?]
  congr 1
  funext r
  by_cases hr : r.id = run.id <;> simp [hr]

theorem run?_put_of_ne (h : other ≠ run.id) : (fleet.put run).run? other = fleet.run? other := by
  rw [run?, put, List.find?_map]
  have hfind : fleet.runs.find? ((fun r => r.id == other) ∘ fun r =>
      if r.id = run.id then run else r) = fleet.run? other := by
    rw [run?]
    congr 1
    funext r
    by_cases hr : r.id = run.id <;> simp [hr]
  rw [hfind]
  cases hr : fleet.run? other with
  | none => rfl
  | some r =>
    have hne : r.id ≠ run.id := by rw [id_of_run? hr]; exact h
    simp [hne]

/-! ## Turns in a fleet -/

/-- The turn of nobody changes nothing. -/
theorem act_turn_of_none (h : fleet.run? id = none) (t : Turn) :
    fleet.act (.turn id t) = fleet := by
  cases t <;> simp [act, perform, h]

theorem attach_of_awaits (fleet : Fleet) (h : run.phase.awaitsAttachment = true) :
    (fleet.attach run).2.hub = (run.attach fleet.hub).1 ∧
      (fleet.attach run).2.runs = (fleet.put (run.attach fleet.hub).2).runs := by
  simp only [Fleet.attach, Run.attach, Run.channel, if_pos h]
  cases fleet.hub.subscribe run.ceremony.channel.name with
  | error e => exact ⟨rfl, rfl⟩
  | ok opened => exact ⟨rfl, rfl⟩

/-- **A turn in a fleet** changes the hub and the run whose turn it is. -/
theorem act_turn (h : fleet.run? id = some run) (t : Turn) :
    (fleet.act (.turn id t)).hub = (run.take fleet.hub t).1 ∧
      (fleet.act (.turn id t)).run? id = some (run.take fleet.hub t).2 ∧
      ∀ other, other ≠ id → (fleet.act (.turn id t)).run? other = fleet.run? other := by
  obtain rfl := id_of_run? h
  have hid : (run.take fleet.hub t).2.id = run.id := (run.take_id_ceremony fleet.hub t).1
  -- in all cases but one the run is put back
  have hput {after : Fleet} (hruns : after.runs = (fleet.put (run.take fleet.hub t).2).runs) :
      after.run? run.id = some (run.take fleet.hub t).2 ∧
        ∀ other, other ≠ run.id → after.run? other = fleet.run? other := by
    have hrun (other : Nat) : after.run? other = (fleet.put (run.take fleet.hub t).2).run? other :=
      congrArg (List.find? _) hruns
    refine ⟨?_, fun other hother => ?_⟩
    · rw [hrun, ← hid]
      exact run?_put_self (hid ▸ h)
    · rw [hrun]
      exact run?_put_of_ne (hid ▸ hother)
  cases t with
  | attach =>
    by_cases hp : run.phase.awaitsAttachment = true
    · obtain ⟨hhub, hruns⟩ := fleet.attach_of_awaits hp
      simp only [act, perform, h]
      exact ⟨hhub, hput hruns⟩
    · have hsame : fleet.act (.turn run.id .attach) = fleet := by
        simp [act, perform, h, Fleet.attach, hp]
      have hidle : run.take fleet.hub .attach = (fleet.hub, run) := by
        simp [Run.take, Run.attach, hp]
      rw [hsame, hidle]
      exact ⟨rfl, h, fun _ _ => rfl⟩
  | signal s =>
    simp only [act, perform, h]
    exact ⟨rfl, hput rfl⟩
  | look =>
    simp only [act, h]
    exact ⟨rfl, hput rfl⟩

/-- A run stays on its channel. -/
theorem exists_run?_act (hrun : fleet.run? id = some run) (a : Act) :
    ∃ run', (fleet.act a).run? id = some run' ∧ run'.channel = run.channel := by
  cases a with
  | outside op => exact ⟨run, hrun, rfl⟩
  | turn number t =>
    cases hother : fleet.run? number with
    | none => exact ⟨run, by rwa [act_turn_of_none hother], rfl⟩
    | some other =>
      obtain ⟨-, hself, hothers⟩ := act_turn hother t
      by_cases hn : id = number
      · subst hn
        obtain rfl := Option.some.inj (hrun.symm.trans hother)
        exact ⟨_, hself, run.take_channel fleet.hub t⟩
      · exact ⟨run, (hothers id hn).trans hrun, rfl⟩

/-! ## Fleets in order -/

/-- The hub is sound, each run is bound to it, and each run has a channel of its own. -/
structure InOrder (fleet : Fleet) : Prop where
  sound : fleet.hub.Sound
  bound : ∀ id run, fleet.run? id = some run → run.Bound fleet.hub
  apart : ∀ id other run run', fleet.run? id = some run → fleet.run? other = some run' →
    run.channel = run'.channel → id = other

/-- Different runs have different receivers. -/
theorem InOrder.receiver_ne (h : fleet.InOrder) {run' : Run} (hrun : fleet.run? id = some run)
    (hrun' : fleet.run? other = some run') (hne : id ≠ other) {receiver : ReceiverId}
    (hr : run.receiver = some receiver) : run'.receiver ≠ some receiver := by
  intro hr'
  obtain ⟨r, hget, hc⟩ := (h.bound id run hrun).receiver?_eq receiver hr
  obtain ⟨r', hget', hc'⟩ := (h.bound other run' hrun').receiver?_eq receiver hr'
  obtain rfl := Option.some.inj (hget.symm.trans hget')
  exact hne (h.apart id other run run' hrun hrun' (hc.symm.trans hc'))

/-- What others do drops nobody's receiver. -/
theorem exists_after?_operation (op : Outside) (r : Receiver) (capacity : Nat) :
    ∃ next, r.after? capacity op.operation = some next ∧ next.channel = r.channel := by
  cases op with
  | publish name payload =>
    refine ⟨_, rfl, ?_⟩
    split <;> simp
  | close name =>
    refine ⟨_, rfl, ?_⟩
    split <;> rfl
  | prune => exact ⟨r, rfl, rfl⟩

/-- What others do keeps a fleet in order. -/
theorem InOrder.outside (h : fleet.InOrder) (op : Outside) : (fleet.act (.outside op)).InOrder := by
  refine ⟨h.sound.apply _, fun id run hrun => ?_, h.apart⟩
  have hb := h.bound id run hrun
  refine ⟨hb.isSome_receiver, fun receiver hr => ?_⟩
  obtain ⟨r, hget, hc⟩ := hb.receiver?_eq receiver hr
  obtain ⟨next, hnext, hchannel⟩ := exists_after?_operation op r fleet.hub.capacity
  exact ⟨next, (Hub.receiver?_apply_of_receiver? h.sound hget _).trans hnext, hchannel.trans hc⟩

/-- A turn keeps a fleet in order. -/
theorem InOrder.turn (h : fleet.InOrder) (id : Nat) (t : Turn) :
    (fleet.act (.turn id t)).InOrder := by
  cases hrun : fleet.run? id with
  | none => rwa [act_turn_of_none hrun]
  | some run =>
    have hb := h.bound id run hrun
    have htook := Run.took_take h.sound hb t
    obtain ⟨hhub, hself, hothers⟩ := act_turn hrun t
    refine ⟨hhub ▸ htook.sound h.sound, fun other other' hother => ?_, ?_⟩
    · rw [hhub]
      by_cases hid : other = id
      · subst hid
        obtain rfl := Option.some.inj (hself.symm.trans hother)
        exact htook.bound h.sound hb
      · rw [hothers other hid] at hother
        have hb' := h.bound other other' hother
        refine ⟨hb'.isSome_receiver, fun receiver hr => ?_⟩
        obtain ⟨r, hget, hc⟩ := hb'.receiver?_eq receiver hr
        exact ⟨r, htook.receiver?_eq h.sound hget (h.receiver_ne hother hrun hid hr), hc⟩
    · -- each run has kept its channel
      have hold {number : Nat} {r : Run} (hr : (fleet.act (.turn id t)).run? number = some r) :
          ∃ old, fleet.run? number = some old ∧ old.channel = r.channel := by
        obtain ⟨old, hold⟩ : ∃ old, fleet.run? number = some old := by
          by_cases hid : number = id
          · exact ⟨run, hid ▸ hrun⟩
          · exact ⟨r, (hothers number hid).symm.trans hr⟩
        obtain ⟨r', hr', hc⟩ := exists_run?_act hold (.turn id t)
        obtain rfl := Option.some.inj (hr.symm.trans hr')
        exact ⟨old, hold, hc.symm⟩
      intro first second r r' hr hr' hc
      obtain ⟨old, ho, hoc⟩ := hold hr
      obtain ⟨old', ho', hoc'⟩ := hold hr'
      exact h.apart first second old old' ho ho' (hoc.trans (hc.trans hoc'.symm))

theorem InOrder.act (h : fleet.InOrder) (a : Act) : (fleet.act a).InOrder := by
  cases a with
  | outside op => exact h.outside op
  | turn id t => exact h.turn id t

/-- **A play keeps a fleet in order.** -/
theorem InOrder.play (h : fleet.InOrder) (acts : List Act) : (fleet.play acts).InOrder := by
  induction acts generalizing fleet with
  | nil => exact h
  | cons a rest ih => exact ih (h.act a)

theorem InOrder.capacity_act (h : fleet.InOrder) (a : Act) :
    (fleet.act a).hub.capacity = fleet.hub.capacity := by
  cases a with
  | outside op => exact (fleet.hub.capacity_next_apply _).1
  | turn id t =>
    cases hrun : fleet.run? id with
    | none => rw [act_turn_of_none hrun]
    | some run =>
      rw [(act_turn hrun t).1]
      exact (Run.took_take h.sound (h.bound id run hrun) t).capacity_eq

theorem InOrder.capacity_play (h : fleet.InOrder) (acts : List Act) :
    (fleet.play acts).hub.capacity = fleet.hub.capacity := by
  induction acts generalizing fleet with
  | nil => rfl
  | cons a rest ih => exact (ih (h.act a)).trans (h.capacity_act a)

/-! ## Fleets that are launched -/

theorem launched_hub_runs (hub : Hub) (ceremonies : List Ceremony) :
    (launched hub ceremonies).hub = hub ∧ (launched hub ceremonies).runs =
      ceremonies.zipIdx.map fun (c, id) => ⟨id, c, c.start.1, none⟩ := by
  have hfold (fleet : Fleet) (numbered : List (Ceremony × Nat)) :
      (numbered.foldl (fun fleet (c, id) => (fleet.launch id c).2) fleet).hub = fleet.hub ∧
      (numbered.foldl (fun fleet (c, id) => (fleet.launch id c).2) fleet).runs =
        fleet.runs ++ numbered.map fun (c, id) => ⟨id, c, c.start.1, none⟩ := by
    induction numbered generalizing fleet with
    | nil => simp
    | cons first rest ih =>
      obtain ⟨hhub, hruns⟩ := ih (fleet.launch first.2 first.1).2
      exact ⟨hhub, hruns.trans (by simp [launch])⟩
  exact hfold (.new hub) ceremonies.zipIdx

theorem run?_launched {hub : Hub} {ceremonies : List Ceremony} :
    (launched hub ceremonies).run? id = some run ↔
      ∃ c, ceremonies[id]? = some c ∧ run = ⟨id, c, c.start.1, none⟩ := by
  have hfound {run : Run} (h : (launched hub ceremonies).run? id = some run) :
      ∃ c, ceremonies[id]? = some c ∧ run = ⟨id, c, c.start.1, none⟩ := by
    have hmem := mem_of_run? h
    obtain rfl := id_of_run? h
    rw [(launched_hub_runs hub ceremonies).2] at hmem
    obtain ⟨⟨c, number⟩, hc, rfl⟩ := List.mem_map.1 hmem
    exact ⟨c, List.mem_zipIdx_iff_getElem?.1 hc, rfl⟩
  refine ⟨hfound, ?_⟩
  rintro ⟨c, hc, rfl⟩
  cases h : (launched hub ceremonies).run? id with
  | some other =>
    obtain ⟨c', hc', rfl⟩ := hfound h
    obtain rfl := Option.some.inj (hc.symm.trans hc')
    rfl
  | none =>
    have hnone := List.find?_eq_none.1 h
    rw [(launched_hub_runs hub ceremonies).2] at hnone
    have hmem : (c, id) ∈ ceremonies.zipIdx := List.mem_zipIdx_iff_getElem?.2 hc
    simpa using hnone _ (List.mem_map_of_mem hmem)

/-- Ceremonies with different channels that start over a sound hub are in order. -/
theorem inOrder_launched {hub : Hub} (hs : hub.Sound) {ceremonies : List Ceremony}
    (hd : (ceremonies.map Ceremony.channel).Nodup) : (launched hub ceremonies).InOrder := by
  refine ⟨by rwa [(launched_hub_runs hub ceremonies).1], ?_, ?_⟩
  · intro id run h
    obtain ⟨c, -, rfl⟩ := run?_launched.1 h
    exact Run.bound_of_receiver_eq_none rfl c.isAttached_start
  · intro id other run run' h h' hc
    obtain ⟨c, hget, rfl⟩ := run?_launched.1 h
    obtain ⟨c', hget', rfl⟩ := run?_launched.1 h'
    exact index_of_channel hd hget hget' (ChannelKey.name_injective hc)

end Fleet

end Custody
