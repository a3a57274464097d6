import Custody.Proofs.Fleet.Lone
/-!
# Waits that find nothing

A run whose receiver keeps nothing but noise, and is open, does not end by reading
(`Run.Calm.settle`), and stays so as long as others publish only noise on its channel and do not
close it (`Run.Calm.outside`). In general a run that reads goes on waiting, returns a result or
finds its channel closed (`Run.settleRun_phase`).
-/

namespace Custody

open Ceremony

/-- What others do is of no use to one who waits on a channel, and does not end the wait. -/
def Outside.IsNoise (key : ChannelKey) : Outside → Prop
  | .publish name payload => name = key.name → resultOf? key.purpose payload = none
  | .close name => name ≠ key.name
  | .prune => True

namespace Hub

variable {hub : Hub}

theorem Sound.skim (hs : hub.Sound) (id : ReceiverId) (n : Nat) : (hub.skim id n).Sound := by
  have hsame (r : Receiver) :
      (if r.id = id then { r with pending := r.pending.drop n } else r).id = r.id ∧
        (if r.id = id then { r with pending := r.pending.drop n } else r).channel = r.channel := by
    split <;> exact ⟨rfl, rfl⟩
  refine ⟨?_, ?_, ?_⟩
  · simp only [Hub.skim, List.pairwise_map, (hsame _).1]
    exact hs.distinct
  · intro r hr
    obtain ⟨old, hold, rfl⟩ := List.mem_map.1 hr
    rw [(hsame old).1]
    exact hs.id_lt old hold
  · intro r hr
    obtain ⟨old, hold, rfl⟩ := List.mem_map.1 hr
    rw [(hsame old).2]
    exact hs.valid old hold

/-- One who reads with a receiver that there is not finds the end. -/
theorem drain_of_none {id : ReceiverId} (h : hub.receiver? id = none) :
    hub.drain id = ([], true, hub) := by
  have hfind : hub.receivers.find? (·.id == id) = none := h
  simp [drain, hfind]

end Hub

/-- A ceremony has ended by what it has read: a result, or the end of its stream. -/
def Ceremony.HasEnded (c : Ceremony) (phase : Phase) : Prop :=
  (∃ result, phase = .finished (.returned (.ok result))) ∨
    phase = fail (.channelClosed c.channel.name)

namespace Run

variable {hub : Hub} {run : Run}

/-! ## Hubs stay sound -/

theorem sound_release (hs : hub.Sound) (run : Run) (effects : List Effect) :
    (Fleet.release hub run effects).1.Sound := by
  unfold Fleet.release
  split
  · exact hs
  · split
    · exact hs.apply (.drop _)
    · exact hs

theorem sound_advance (hs : hub.Sound) (run : Run) (e : Event) :
    (Fleet.advance hub run e).2.1.Sound :=
  sound_release hs _ _

theorem sound_meet (hs : hub.Sound) (run : Run) (input : Fleet.Input) :
    (run.meet hub input).2.1.Sound := by
  unfold meet
  split
  · exact Hub.sound_run hs _
  · split
    · split
      · exact sound_advance hs ..
      · next hsub =>
        obtain ⟨-, -, rfl, -⟩ := Hub.receiver?_subscribe hs hsub
        exact sound_advance (hs.apply _) ..
    · exact hs
  · split
    · exact sound_advance hs ..
    · exact hs

theorem sound_settleRun (hs : hub.Sound) (run : Run) : (Fleet.settleRun hub run).1.Sound := by
  unfold Fleet.settleRun
  split
  · next receiver _ _ =>
    have hdrain : (hub.drain receiver).2.2.Sound := by
      cases hr : hub.receiver? receiver with
      | none => rwa [Hub.drain_of_none hr]
      | some r => rw [Hub.drain_eq hs hr]; exact hs.skim ..
    exact sound_release hdrain ..
  · exact hs

/-! ## What reading can come to -/

theorem readAll_phase (c : Ceremony) (payloads : List String) :
    Fleet.readAll c .waiting payloads = (.waiting, []) ∨
      ∃ result, (Fleet.readAll c .waiting payloads).1 = .finished (.returned (.ok result)) := by
  induction payloads with
  | nil => exact .inl rfl
  | cons payload rest ih =>
    cases hr : resultOf? c.channel.purpose payload with
    | none =>
      have hstep : c.step .waiting (.message payload) = (.waiting, []) := by
        simp [step, afterWait, Wait.step, hr]
      simpa only [Fleet.readAll, hstep] using ih
    | some result =>
      have hstep := (Move.result (c := c) hr).step_eq
      simp only [Fleet.readAll, hstep]
      exact .inr ⟨result, rfl⟩

theorem release_phase_ceremony (hub : Hub) (run : Run) (effects : List Effect) :
    (Fleet.release hub run effects).2.phase = run.phase ∧
      (Fleet.release hub run effects).2.ceremony = run.ceremony := by
  unfold Fleet.release
  split
  · exact ⟨rfl, rfl⟩
  · split <;> exact ⟨rfl, rfl⟩

theorem settleRun_ceremony (hub : Hub) (run : Run) :
    (Fleet.settleRun hub run).2.ceremony = run.ceremony := by
  unfold Fleet.settleRun
  split
  · exact (release_phase_ceremony ..).2
  · rfl

/-- **A run that waits and reads** goes on waiting, returns a result or finds its channel closed. -/
theorem settleRun_phase (hub : Hub) (hp : run.phase = .waiting) :
    (Fleet.settleRun hub run).2.phase = .waiting ∨
      run.ceremony.HasEnded (Fleet.settleRun hub run).2.phase := by
  unfold Fleet.settleRun
  split
  · next receiver _ _ =>
    rw [(release_phase_ceremony ..).1]
    rcases readAll_phase run.ceremony (hub.drain receiver).1 with hread | ⟨result, hread⟩
    · rw [hread]
      split
      · exact .inr (.inr rfl)
      · exact .inl rfl
    · split
      · exact .inr (.inl ⟨result, by rw [hread, step_finished]⟩)
      · exact .inr (.inl ⟨result, hread⟩)
  · exact .inl hp

/-! ## Who hears -/

theorem isSome_receiver_release (hub : Hub) (run : Run) (effects : List Effect)
    (h : (Fleet.release hub run effects).2.receiver.isSome = true) :
    run.receiver.isSome = true := by
  unfold Fleet.release at h
  split at h
  · exact h
  · next hid => rw [hid]; rfl

/-- Nobody begins to hear unless a subscription is opened. -/
theorem isSome_receiver_meet {input : Fleet.Input}
    (h : (run.meet hub input).2.2.receiver.isSome = true) :
    run.receiver.isSome = true ∨ input = .attach run.id := by
  cases input with
  | outside ops => exact .inl h
  | event number e =>
    simp only [Run.meet] at h
    split at h
    · exact .inl (isSome_receiver_release hub
        { run with phase := (run.ceremony.step run.phase e).1 } _ h)
    · exact .inl h
  | attach number =>
    simp only [Run.meet] at h
    split at h
    · next hn => exact .inr (by rw [hn.1])
    · exact .inl h

theorem isSome_receiver_settleRun (h : (Fleet.settleRun hub run).2.receiver.isSome = true) :
    run.receiver.isSome = true := by
  unfold Fleet.settleRun at h
  split at h
  · next hid => rw [hid]; rfl
  · exact h

/-! ## Nothing but noise -/

/-- The run has nothing to read but noise, and its channel is open. -/
inductive Calm (hub : Hub) (run : Run) : Prop
  | deaf (hid : run.receiver = none)
  | hearing {id : ReceiverId} {r : Receiver} (hid : run.receiver = some id)
    (hr : hub.receiver? id = some r) (hc : r.channel = run.channel) (ho : r.isOpen = true)
    (hn : ∀ payload ∈ r.pending, resultOf? run.ceremony.channel.purpose payload = none)

theorem Calm.outside (h : run.Calm hub) (hs : hub.Sound) {op : Outside}
    (hop : op.IsNoise run.ceremony.channel) : run.Calm (hub.apply op.operation).2 := by
  cases h with
  | deaf hid => exact .deaf hid
  | @hearing id r hid hr hc ho hn =>
    have hafter := Hub.receiver?_apply_of_receiver? hs hr op.operation
    cases op with
    | publish name payload =>
      by_cases hl : r.listensOn name = true
      · have hname : run.ceremony.channel.name = name := by
          simp only [Receiver.listensOn, Bool.and_eq_true, beq_iff_eq] at hl
          exact hc.symm.trans hl.2
        refine .hearing hid (hafter.trans (congrArg some (if_pos hl))) hc ho fun p hp => ?_
        rcases List.mem_append.1 ((Receiver.keepLast_suffix _ _).subset hp) with hp | hp
        · exact hn p hp
        · rw [List.mem_singleton.1 hp]
          exact hop hname.symm
      · exact .hearing hid (hafter.trans (congrArg some (if_neg hl))) hc ho hn
    | close name =>
      have hne : r.channel ≠ name := fun he => hop (he.symm.trans hc)
      exact .hearing hid (hafter.trans (congrArg some (if_neg hne))) hc ho hn
    | prune => exact .hearing hid hafter hc ho hn

theorem Calm.outsides (h : run.Calm hub) (hs : hub.Sound) {ops : List Outside}
    (hops : ∀ op ∈ ops, op.IsNoise run.ceremony.channel) :
    run.Calm (hub.run (ops.map Outside.operation)).2 := by
  induction ops generalizing hub with
  | nil => exact h
  | cons op rest ih =>
    exact ih (h.outside hs (hops op List.mem_cons_self)) (hs.apply _)
      fun later hmem => hops later (List.mem_cons_of_mem op hmem)

theorem Calm.advance (h : run.Calm hub) (e : Event) :
    (Fleet.advance hub run e).2.2.Calm (Fleet.advance hub run e).2.1 := by
  rw [advance_eq]
  split
  · exact .deaf rfl
  · cases h with
    | deaf hid => exact .deaf hid
    | hearing hid hr hc ho hn => exact .hearing hid hr hc ho hn

/-- **An input keeps a run calm** if one who hears it hears no more than noise. -/
theorem Calm.meet (h : run.Calm hub) (hs : hub.Sound) {input : Fleet.Input}
    (hin : run.receiver.isSome = true →
      ∀ op ∈ input.outsides, op.IsNoise run.ceremony.channel) :
    (run.meet hub input).2.2.Calm (run.meet hub input).2.1 := by
  cases input with
  | outside ops =>
    cases hid : run.receiver with
    | none => exact .deaf hid
    | some id => exact h.outsides hs (hin (by rw [hid]; rfl))
  | event number e =>
    simp only [Run.meet]
    split
    · exact h.advance e
    · exact h
  | attach number =>
    simp only [Run.meet]
    split
    · split
      · exact h.advance _
      · next id after hsub =>
        obtain ⟨-, -, -, hnew⟩ := Hub.receiver?_subscribe hs hsub
        exact (@Calm.hearing after { run with receiver := some id } _ _ rfl hnew rfl rfl
          (List.forall_mem_nil _)).advance _
    · exact h

theorem readAll_of_noise {c : Ceremony} {payloads : List String}
    (hn : ∀ payload ∈ payloads, resultOf? c.channel.purpose payload = none) :
    Fleet.readAll c .waiting payloads = (.waiting, []) := by
  induction payloads with
  | nil => rfl
  | cons payload rest ih =>
    obtain ⟨hfirst, hrest⟩ := List.forall_mem_cons.1 hn
    have hstep : c.step .waiting (.message payload) = (.waiting, []) := by
      simp [step, afterWait, Wait.step, hfirst]
    simpa only [Fleet.readAll, hstep] using ih hrest

/-- **A run that is calm does not end by reading.** -/
theorem Calm.settle (h : run.Calm hub) (hs : hub.Sound) :
    (Fleet.settleRun hub run).2.phase = run.phase ∧
      (Fleet.settleRun hub run).2.Calm (Fleet.settleRun hub run).1 := by
  by_cases hp : run.phase = .waiting
  · cases h with
    | deaf hid =>
      have hsame : Fleet.settleRun hub run = (hub, run) := by
        unfold Fleet.settleRun
        split
        · next hid' => rw [hid] at hid'; cases hid'
        · rfl
      rw [hsame]
      exact ⟨rfl, .deaf hid⟩
    | @hearing id r hid hr hc ho hn =>
      have hread : Fleet.settleRun hub run = (hub.skim id r.pending.length, run) := by
        rw [settleRun_eq hs hp hid hr, readAll_of_noise hn]
        simp only [ho, if_true]
        rw [release_of_not_mem List.not_mem_nil, ← hp]
      rw [hread]
      exact ⟨rfl, .hearing hid (Hub.receiver?_skim hr _) hc ho (by simp)⟩
  · rw [settleRun_of_phase_ne hp]
    exact ⟨rfl, h⟩

end Run

end Custody
