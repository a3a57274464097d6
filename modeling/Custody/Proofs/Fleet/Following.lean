import Custody.Proofs.Fleet.EarlyResult
import Custody.Proofs.Fleet.Release
import Custody.Proofs.Hub.Feed
/-!
# Runs that follow their channel among others

A run whose subscription is opened follows its channel from then on (`Run.meet_attach_follows`),
whatever others do that has nothing to do with it (`Run.Ignores`), as what is done elsewhere
(`Outside.IsElsewhere`).
-/

namespace Custody

open Ceremony

/-- What others do has nothing to do with a channel. -/
def Outside.IsElsewhere (channel : String) : Outside → Prop
  | .publish name _ => name ≠ channel
  | .close name => name ≠ channel
  | .prune => True

theorem Outside.IsElsewhere.not_touches {channel : String} {op : Outside}
    (h : op.IsElsewhere channel) (hub : Hub) : ¬ hub.Touches channel op.operation := by
  cases op with
  | publish | prune => exact not_false
  | close name => exact h

theorem Hub.subscriberCount_of_elsewhere {hub : Hub} (hs : hub.Sound) {channel : String}
    {ops : List Outside} (hops : ∀ op ∈ ops, op.IsElsewhere channel) :
    (hub.run (ops.map Outside.operation)).2.subscriberCount channel =
      hub.subscriberCount channel := by
  induction ops generalizing hub with
  | nil => rfl
  | cons op rest ih =>
    obtain ⟨hop, hrest⟩ := List.forall_mem_cons.1 hops
    exact (ih (hs.apply _) hrest).trans
      (Hub.subscriberCount_of_not_touches hs (hop.not_touches hub))

namespace Run

/-- The operation has nothing to do with the channel of a run, nor with its receiver. -/
structure Ignores (hub : Hub) (run : Run) (op : Hub.Operation) : Prop where
  touches : ¬ hub.Touches run.channel op
  publish : ∀ payload, op ≠ .publish run.channel payload
  spares : ∀ id ∈ run.receiver, op.Spares id

variable {hub : Hub} {run : Run} {id : ReceiverId} {op : Hub.Operation} {acknowledged : Bool}
  {payloads : List String}

/-- An operation that has nothing to do with a run leaves its receiver as it is. -/
theorem Ignores.receiver?_eq (h : run.Ignores hub op) (hs : hub.Sound)
    (hid : run.receiver = some id) {r : Receiver} (hr : hub.receiver? id = some r)
    (hc : r.channel = run.channel) : (hub.apply op).2.receiver? id = some r := by
  rw [Hub.receiver?_apply_of_receiver? hs hr]
  obtain ⟨hread, hdrop⟩ := h.spares id hid
  have hrid := Hub.id_of_receiver? hr
  cases op with
  | subscribe name => rfl
  | publish name payload =>
    have hne : name ≠ run.channel := fun he => h.publish payload (by rw [he])
    simp [Receiver.after?, Receiver.listensOn, hc, Ne.symm hne]
  | receive other =>
    have hne : other ≠ id := fun he => hread (by rw [he])
    simp [Receiver.after?, hrid, Ne.symm hne]
  | drop other =>
    have hne : other ≠ id := fun he => hdrop (by rw [he])
    simp [Receiver.after?, hrid, Ne.symm hne]
  | close name =>
    have hne : name ≠ run.channel := h.touches
    simp [Receiver.after?, hc, Ne.symm hne]
  | prune => rfl

theorem Ignores.kept_eq (h : run.Ignores hub op) (hs : hub.Sound) (hb : run.Bound hub) :
    run.kept (hub.apply op).2 = run.kept hub := by
  cases hid : run.receiver with
  | none => simp [kept, hid]
  | some id =>
    obtain ⟨r, hr, hc⟩ := hb.receiver?_eq id hid
    rw [kept_of_receiver? hid hr, kept_of_receiver? hid (h.receiver?_eq hs hid hr hc)]

theorem Follows.ignores (hf : run.Follows hub acknowledged payloads) (h : run.Ignores hub op)
    (hs : hub.Sound) (hb : run.Bound hub) : run.Follows (hub.apply op).2 acknowledged payloads :=
  hf.of_receiver? fun _ _ hid hr => by
    obtain ⟨r', hr', hc⟩ := hb.receiver?_eq _ hid
    obtain rfl := Option.some.inj (hr.symm.trans hr')
    exact h.receiver?_eq hs hid hr hc

/-- What a run keeps is what it has not read of all that was published. -/
theorem Follows.length_kept_le (hf : run.Follows hub acknowledged payloads) :
    (run.kept hub).length ≤ payloads.length := by
  cases hf with
  | @reading _ id r read hp hid hr ho hread =>
    rw [kept_of_receiver? hid hr, List.length_append]
    exact Nat.le_add_left ..
  | ended hp hid hfirst => simp [kept, hid]

/-- Who follows its channel before its trigger is acknowledged waits for just that. -/
theorem Follows.phase_eq (hf : run.Follows hub false payloads) :
    run.phase = .triggering true := by
  cases hf with
  | reading hp => exact hp

/-- Who follows its channel after that waits for a result, or is over. -/
theorem Follows.waits_or_over (hf : run.Follows hub true payloads) :
    run.phase = .waiting ∨ run.phase.outcome?.isSome = true := by
  cases hf with
  | reading hp => exact .inl hp
  | ended hp => exact .inr (by rw [hp]; rfl)

/-- Who holds no subscription has nothing to read. -/
theorem Bound.kept_eq_nil (hb : run.Bound hub) (hp : run.phase.isAttached = false) :
    run.kept hub = [] := by
  have hnone : run.receiver = none := by
    rw [← Option.isNone_iff_eq_none, ← Option.isSome_eq_false_iff, hb.isSome_receiver, hp]
  simp [kept, hnone]

/-- One look reads something, where there is something to read. -/
theorem length_kept_look_lt (hs : hub.Sound) (hb : run.Bound hub) (hp : run.phase = .waiting)
    (hkept : run.kept hub ≠ []) :
    ((run.look hub).2.kept (run.look hub).1).length < (run.kept hub).length := by
  obtain ⟨id, hid⟩ := Option.isSome_iff_exists.1
    (hb.isSome_receiver.trans (by rw [hp]; rfl : run.phase.isAttached = true))
  obtain ⟨r, hr, -⟩ := hb.receiver?_eq id hid
  obtain ⟨payload, rest, hpending⟩ := List.exists_cons_of_ne_nil hkept
  have hheard : run.heard? hub .look = some payload := by
    rw [kept_of_receiver? hid hr] at hpending
    simp only [heard?, hp, hid, Hub.receive_eq hr, Receiver.payload?_read, hpending,
      List.head?_cons]
  have hlength := (heard?_append_kept hs hb .look).length_le
  rw [hheard, Option.toList_some, List.singleton_append, List.length_cons] at hlength
  exact hlength

/-- Others give a run no more than one payload at a time. -/
theorem Bound.length_kept_outside_le (hb : run.Bound hub) (hs : hub.Sound) (op : Outside) :
    (run.kept (hub.apply op.operation).2).length ≤ (run.kept hub).length + 1 := by
  cases hid : run.receiver with
  | none => simp [kept, hid]
  | some id =>
    obtain ⟨r, hr, -⟩ := hb.receiver?_eq id hid
    obtain ⟨next, hnext, -⟩ := Fleet.exists_after?_operation op r hub.capacity
    have hlength := (Fleet.pending_after?_operation hnext rfl).length_le
    have hpayload : (Fleet.Act.payload? r.channel (.outside op)).toList.length ≤ 1 := by
      cases Fleet.Act.payload? r.channel (.outside op) <;> simp
    have hr' := (Hub.receiver?_apply_of_receiver? hs hr op.operation).trans hnext
    rw [kept_of_receiver? hid hr, kept_of_receiver? hid hr']
    rw [List.length_append] at hlength
    omega

/-- Who follows its channel holds a subscription, or is over. -/
theorem Follows.isAttached (hf : run.Follows hub acknowledged payloads) :
    run.phase.isAttached = true ∨ run.phase.outcome?.isSome = true := by
  cases hf with
  | reading hp =>
    rw [hp]
    cases acknowledged <;> exact .inl rfl
  | ended hp =>
    rw [hp]
    exact .inr rfl

/-- **A run whose subscription is opened follows its channel from then on.** -/
theorem meet_attach_follows (hs : hub.Sound) (acknowledged : Bool)
    (hp : run.phase = if acknowledged then .attaching else .subscribing) :
    (run.meet hub (.attach run.id)).1 = (if acknowledged then [] else [.notify]) ∧
      (run.meet hub (.attach run.id)).2.2.Follows (run.meet hub (.attach run.id)).2.1
        acknowledged [] := by
  have hawaits : run.phase.awaitsAttachment = true := by
    rw [hp]
    cases acknowledged <;> rfl
  have hv : ChannelName.Valid run.channel := run.ceremony.channel.valid_name
  obtain ⟨next, hsub⟩ := hub.exists_subscribe hv
  obtain ⟨-, -, -, hnew⟩ := Hub.receiver?_subscribe hs hsub
  have hstep : run.ceremony.step run.phase .attached =
      (if acknowledged then .waiting else .triggering true,
        if acknowledged then [] else [.notify]) := by
    rw [hp]
    cases acknowledged with
    | false => exact Move.attachedEarly.step_eq
    | true => exact Move.attachedLate.step_eq
  have hmeet : run.meet hub (.attach run.id) =
      Fleet.advance next { run with receiver := some hub.next } .attached := by
    simp only [meet, hawaits, and_self, if_true, hsub]
  have hrelease : Effect.release ∉ (run.ceremony.step run.phase .attached).2 := by
    rw [hstep]
    cases acknowledged <;> simp
  rw [hmeet]
  refine ⟨congrArg Prod.snd hstep, ?_⟩
  rw [advance_eq, if_neg hrelease, hstep]
  have hopen : Follows next
      { run with phase := if acknowledged then .waiting else .triggering true,
                 receiver := some hub.next } acknowledged ([] ++ []) :=
    .reading (r := ⟨hub.next, run.channel, [], true⟩) rfl rfl hnew rfl (List.forall_mem_nil _)
  exact hopen

/-- A turn in which a subscription is opened, with its effects. -/
theorem snd_meet_attach (hub : Hub) (run : Run) :
    (run.meet hub (.attach run.id)).2 = run.take hub .attach := by
  simp only [meet, take, attach, true_and]
  split
  · cases hub.subscribe run.channel <;> rfl
  · rfl

theorem snd_meet_signal (hub : Hub) (run : Run) (s : Signal) :
    (run.meet hub (.event run.id s.event)).2 = run.take hub (.signal s) := by
  simp only [meet, take, if_true]

end Run

/-- A run ignores what is done elsewhere. -/
theorem Run.ignores_of_isElsewhere {run : Run} {op : Outside}
    (h : op.IsElsewhere run.channel) (hub : Hub) : run.Ignores hub op.operation where
  touches := h.not_touches hub
  publish payload he := by
    cases op with
    | publish name text =>
      obtain ⟨rfl, -⟩ := Hub.Operation.publish.inj he
      exact h rfl
    | close | prune => cases he
  spares id _ := Hub.Operation.spares_outside id op

/-- Who has nothing to read in an open channel changes nothing by a look. -/
theorem Run.Follows.look_of_kept_eq_nil {hub : Hub} {run : Run} {acknowledged : Bool}
    {payloads : List String} (hf : run.Follows hub acknowledged payloads) (hs : hub.Sound)
    (hkept : run.kept hub = []) : run.look hub = (hub, run) := by
  cases hf with
  | ended hp hid => exact look_of_not_waiting hub (by simp [hid])
  | @reading _ id r read hp hid hr ho hread =>
    by_cases hw : run.phase = .waiting
    · have hpending : r.pending = [] := (kept_of_receiver? hid hr).symm.trans hkept
      have hsame : hub.skim id 1 = hub := by
        have hself : hub.receivers.map (fun other => if other.id = id then
            { other with pending := other.pending.drop 1 } else other) = hub.receivers := by
          conv_rhs => rw [← List.map_id hub.receivers]
          refine List.map_congr_left fun other hother => ?_
          by_cases he : other.id = id
          · obtain rfl := hs.eq_of_id hother (Hub.mem_of_receiver? hr)
              (he.trans (Hub.id_of_receiver? hr).symm)
            rw [if_pos he, hpending, List.drop_nil, ← hpending]
            rfl
          · exact if_neg he
        rw [Hub.skim, hself]
      have hread : r.read.1 = .nothing := by simp [Receiver.read_fst, hpending, ho]
      rw [look_of_waiting hw hid hr, hread, Hub.apply_receive, hsame]
    · exact look_of_not_waiting hub fun h => hw h.1

end Custody
