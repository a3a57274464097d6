import Custody.Ceremony.Fleet
import Custody.Proofs.Ceremony.Tenure
import Custody.Proofs.Hub.Receiver
/-!
# The turns of a run

One who has started a ceremony over a hub has its subscription opened, is told things by the
control plane, the clock and its caller, and looks for payloads one at a time, in turns
(`Run.take`). A turn does little to the hub: it attaches a receiver to the run's own channel, reads
with the run's own receiver or drops it (`Run.took_take`). A receiver of somebody else does not
notice (`Run.Took.receiver?_eq`).

A run is bound to its hub when it has a receiver exactly in the phases that hold a subscription, and
that receiver listens on the run's channel (`Run.Bound`). Turns keep it bound, and the operations
of others do so unless they drop its receiver.
-/

namespace Custody

open Ceremony

/-! ## Turns -/

/-- What a ceremony is told, apart from what its subscription tells. -/
inductive Signal
  | attachFailed (e : Error)
  | acknowledged
  | refused (e : Error)
  | deadline
  | cancelled

/-- The event of a signal. -/
def Signal.event : Signal → Event
  | attachFailed e => .attachFailed e
  | acknowledged => .acknowledged
  | refused e => .refused e
  | deadline => .deadline
  | cancelled => .cancelled

/-- What happens to a run next. -/
inductive Turn
  /-- The hub opens the subscription that the run has asked for. -/
  | attach
  | signal (s : Signal)
  /-- The run looks for one payload. -/
  | look

namespace Run

/-- The name of the run's channel. -/
def channel (run : Run) : String :=
  run.ceremony.channel.name

/-- The hub opens the subscription that a run has asked for. -/
def attach (hub : Hub) (run : Run) : Hub × Run :=
  if run.phase.awaitsAttachment then
    match hub.subscribe run.channel with
    | .error e => (Fleet.advance hub run (.attachFailed e.toError)).2
    | .ok (receiver, hub) =>
      (Fleet.advance hub { run with receiver := some receiver } .attached).2
  else (hub, run)

/-- A run that waits looks for one payload. -/
def look (hub : Hub) (run : Run) : Hub × Run :=
  match run.phase, run.receiver with
  | .waiting, some receiver =>
    match hub.receive receiver with
    | (.payload text, hub) => (Fleet.advance hub run (.message text)).2
    | (.nothing, hub) => (hub, run)
    | (.ended, hub) => (Fleet.advance hub run .ended).2
  | _, _ => (hub, run)

/-- A turn of a run: the hub and the run after it. -/
def take (hub : Hub) (run : Run) : Turn → Hub × Run
  | .attach => run.attach hub
  | .signal s => (Fleet.advance hub run s.event).2
  | .look => run.look hub

/-- The run has a receiver exactly while it holds a subscription, and it listens on the run's
channel. -/
structure Bound (hub : Hub) (run : Run) : Prop where
  isSome_receiver : run.receiver.isSome = run.phase.isAttached
  receiver?_eq : ∀ id, run.receiver = some id →
    ∃ r, hub.receiver? id = some r ∧ r.channel = run.channel

variable {hub : Hub} {run : Run} {id : ReceiverId}

/-- One who does not hold a receiver has no part in the hub. -/
theorem bound_of_receiver_eq_none (h : run.receiver = none) (hp : run.phase.isAttached = false) :
    Bound hub run :=
  ⟨by rw [h, hp]; rfl, by simp [h]⟩

/-! ## What an event does -/

/-- An event makes a run drop its receiver, or leaves it with what it has. -/
theorem advance_eq (hub : Hub) (run : Run) (e : Event) :
    (Fleet.advance hub run e).2 =
      if .release ∈ (run.ceremony.step run.phase e).2 then
        ((run.receiver.elim hub fun id => (hub.apply (.drop id)).2),
          { run with phase := (run.ceremony.step run.phase e).1, receiver := none })
      else (hub, { run with phase := (run.ceremony.step run.phase e).1 }) := by
  obtain ⟨number, c, phase, receiver⟩ := run
  cases receiver with
  | none => simp [Fleet.advance, Fleet.release]
  | some id =>
    simp only [Fleet.advance, Fleet.release]
    split <;> rfl

/-- One who does not wait, or has no receiver, does not look. -/
theorem look_of_not_waiting (hub : Hub)
    (h : ¬ (run.phase = .waiting ∧ run.receiver.isSome = true)) : run.look hub = (hub, run) := by
  unfold look
  split
  · next hp hr => exact absurd ⟨hp, by rw [hr]; rfl⟩ h
  · rfl

/-- One who waits reads, and goes on with what it has found. -/
theorem look_of_waiting (hp : run.phase = .waiting) (hid : run.receiver = some id) {r : Receiver}
    (hr : hub.receiver? id = some r) :
    run.look hub = match r.read.1 with
      | .payload text => (Fleet.advance (hub.apply (.receive id)).2 run (.message text)).2
      | .nothing => ((hub.apply (.receive id)).2, run)
      | .ended => (Fleet.advance (hub.apply (.receive id)).2 run .ended).2 := by
  simp only [look, hp, hid, Hub.receive_eq hr]
  cases r.read.1 <;> rfl

/-- A turn does not change which ceremony a run is about. -/
theorem take_id_ceremony (run : Run) (hub : Hub) (t : Turn) :
    (run.take hub t).2.id = run.id ∧ (run.take hub t).2.ceremony = run.ceremony := by
  have hadvance (hub : Hub) (run : Run) (e : Event) : (Fleet.advance hub run e).2.2.id = run.id ∧
      (Fleet.advance hub run e).2.2.ceremony = run.ceremony := by
    rw [advance_eq]
    split <;> exact ⟨rfl, rfl⟩
  cases t with
  | attach =>
    simp only [take, attach]
    split
    · split
      · exact hadvance ..
      · exact hadvance ..
    · exact ⟨rfl, rfl⟩
  | signal s => exact hadvance ..
  | look =>
    simp only [take, look]
    split
    · split
      · exact hadvance ..
      · exact ⟨rfl, rfl⟩
      · exact hadvance ..
    · exact ⟨rfl, rfl⟩

theorem take_channel (run : Run) (hub : Hub) (t : Turn) :
    (run.take hub t).2.channel = run.channel := by
  rw [channel, (run.take_id_ceremony hub t).2, channel]

/-- `run.Took hub hub' run'`: what a turn can make of a hub and a run that is bound to it. -/
inductive Took (hub : Hub) (run : Run) : Hub → Run → Prop
  /-- The run has been given a receiver. -/
  | attached {next : Phase} (hr : run.receiver = none) (ha : next.isAttached = true)
    (hv : ChannelName.Valid run.channel) :
    Took hub run (hub.apply (.subscribe run.channel)).2
      { run with phase := next, receiver := some hub.next }
  /-- The run has what it had, and may have read. -/
  | kept {next : Phase} (ha : next.isAttached = run.phase.isAttached) {ops : List Hub.Operation}
    (hops : ops = [] ∨ ∃ id, run.receiver = some id ∧ ops = [.receive id]) :
    Took hub run (hub.run ops).2 { run with phase := next }
  /-- The run is over and has dropped its receiver. -/
  | released {next : Phase} (ha : next.isAttached = false) {id : ReceiverId}
    (hr : run.receiver = some id) {ops : List Hub.Operation}
    (hops : ops = [] ∨ ops = [.receive id]) :
    Took hub run ((hub.run ops).2.apply (.drop id)).2
      { run with phase := next, receiver := none }

theorem took_advance (hb : Bound hub run) {e : Event}
    (he : ¬ (e = .attached ∧ run.phase.awaitsAttachment = true)) {ops : List Hub.Operation}
    (hops : ops = [] ∨ ∃ id, run.receiver = some id ∧ ops = [.receive id]) :
    run.Took hub (Fleet.advance (hub.run ops).2 run e).2.1
      (Fleet.advance (hub.run ops).2 run e).2.2 := by
  rw [advance_eq]
  rcases run.ceremony.step_attachment run.phase e with ⟨hnew, -⟩ | ⟨-, ha, hover, hr⟩ | ⟨-, ha, hr⟩
  · exact absurd hnew he
  · obtain ⟨id, hid⟩ := Option.isSome_iff_exists.1 (hb.isSome_receiver.trans ha)
    have hops' : ops = [] ∨ ops = [.receive id] := by
      rcases hops with h | ⟨other, hother, h⟩
      · exact .inl h
      · exact .inr (by rw [h, Option.some.inj (hother.symm.trans hid)])
    rw [if_pos hr, hid]
    exact .released (Phase.isAttached_of_outcome? hover) hid hops'
  · rw [if_neg hr]
    exact .kept ha hops

/-- **What a turn does.** -/
theorem took_take (hs : hub.Sound) (hb : Bound hub run) (t : Turn) :
    run.Took hub (run.take hub t).1 (run.take hub t).2 := by
  have hidle : run.Took hub hub run := .kept rfl (.inl rfl)
  cases t with
  | attach =>
    by_cases hp : run.phase.awaitsAttachment = true
    · have hnone : run.receiver = none := by
        rw [← Option.isNone_iff_eq_none, ← Option.isSome_eq_false_iff, hb.isSome_receiver]
        exact Phase.isAttached_of_awaitsAttachment hp
      simp only [take, attach, if_pos hp]
      split
      · exact took_advance hb (by simp) (.inl rfl)
      · next id hub' hsub =>
        obtain ⟨hv, rfl, rfl, -⟩ := Hub.receiver?_subscribe hs hsub
        rcases run.ceremony.step_attachment run.phase .attached with
          ⟨-, ha, hr⟩ | ⟨hnew, -⟩ | ⟨hnew, -⟩
        · rw [advance_eq, if_neg hr]
          exact .attached hnone ha hv
        · exact absurd ⟨rfl, hp⟩ hnew
        · exact absurd ⟨rfl, hp⟩ hnew
    · simpa only [take, attach, if_neg hp] using hidle
  | signal s => exact took_advance hb (by cases s <;> simp [Signal.event]) (.inl rfl)
  | look =>
    simp only [take, look]
    split
    · next id hphase hid =>
      have hops : [Hub.Operation.receive id] = [] ∨
          ∃ other, run.receiver = some other ∧ [.receive id] = [Hub.Operation.receive other] :=
        .inr ⟨id, hid, rfl⟩
      have hhub {reading : Reading} {after : Hub} (h : hub.receive id = (reading, after)) :
          after = (hub.run [.receive id]).2 :=
        (congrArg Prod.snd h).symm
      split
      · next text after hread =>
        obtain rfl := hhub hread
        exact took_advance hb (by simp) hops
      · next after hread =>
        obtain rfl := hhub hread
        exact .kept rfl hops
      · next after hread =>
        obtain rfl := hhub hread
        exact took_advance hb (by simp) hops
    · exact hidle

/-! ## What follows for the hub -/

variable {hub' : Hub} {run' : Run}

/-- A turn does operations on the run's own channel and with its own receiver. -/
theorem Took.exists_operations (h : run.Took hub hub' run') :
    ∃ ops, hub' = (hub.run ops).2 ∧ ∀ op ∈ ops, op = .subscribe run.channel ∨
      ∃ id, run.receiver = some id ∧ (op = .receive id ∨ op = .drop id) := by
  cases h with
  | attached hr ha hv => exact ⟨[.subscribe run.channel], rfl, by simp⟩
  | kept ha hops =>
    refine ⟨_, rfl, fun op hop => ?_⟩
    rcases hops with rfl | ⟨id, hid, rfl⟩
    · cases hop
    · exact .inr ⟨id, hid, .inl (List.mem_singleton.1 hop)⟩
  | @released next ha id hr ops hops =>
    refine ⟨ops ++ [.drop id], (hub.run_snoc ops _).symm, fun op hop => .inr ⟨id, hr, ?_⟩⟩
    rcases hops with rfl | rfl
    · exact .inr (List.mem_singleton.1 hop)
    · simpa using hop

theorem Took.sound (h : run.Took hub hub' run') (hs : hub.Sound) : hub'.Sound := by
  obtain ⟨ops, rfl, -⟩ := h.exists_operations
  exact Hub.sound_run hs ops

theorem Took.capacity_eq (h : run.Took hub hub' run') : hub'.capacity = hub.capacity := by
  obtain ⟨ops, rfl, -⟩ := h.exists_operations
  exact hub.capacity_run ops

/-- A turn does nothing to a receiver that is not the run's. -/
theorem Took.receiver?_eq (h : run.Took hub hub' run') (hs : hub.Sound) {r : Receiver}
    (hr : hub.receiver? id = some r) (hne : run.receiver ≠ some id) :
    hub'.receiver? id = some r := by
  obtain ⟨ops, rfl, hops⟩ := h.exists_operations
  refine Hub.receiver?_run_of_forall hs hr fun op hop => ?_
  have hid := Hub.id_of_receiver? hr
  rcases hops op hop with rfl | ⟨other, hother, rfl | rfl⟩
  · rfl
  · have : r.id ≠ other := fun he => hne (by rw [hother, ← he, hid])
    simp [Receiver.after?, this]
  · have : r.id ≠ other := fun he => hne (by rw [hother, ← he, hid])
    simp [Receiver.after?, this]

/-- A turn keeps a run bound to the hub. -/
theorem Took.bound (h : run.Took hub hub' run') (hs : hub.Sound) (hb : Bound hub run) :
    Bound hub' run' := by
  cases h with
  | attached hr ha hv =>
    refine ⟨ha.symm, ?_⟩
    rintro id ⟨⟩
    obtain ⟨hub', hsub⟩ := hub.exists_subscribe hv
    obtain ⟨-, -, rfl, hnew⟩ := Hub.receiver?_subscribe hs hsub
    exact ⟨_, hnew, rfl⟩
  | @kept next ha ops hops =>
    refine ⟨hb.isSome_receiver.trans ha.symm, fun id hid => ?_⟩
    obtain ⟨r, hr, hc⟩ := hb.receiver?_eq id hid
    rcases hops with rfl | ⟨other, hother, rfl⟩
    · exact ⟨r, hr, hc⟩
    · obtain rfl := Option.some.inj (hother.symm.trans hid)
      refine ⟨r.read.2, (Hub.receiver?_apply_of_receiver? hs hr (.receive other)).trans ?_,
        r.read_channel.trans hc⟩
      simp [Receiver.after?, Hub.id_of_receiver? hr]
  | released ha hr hops => exact ⟨ha.symm, by rintro id ⟨⟩⟩

end Run

end Custody
