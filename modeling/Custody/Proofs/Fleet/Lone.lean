import Custody.Proofs.Fleet.Between
/-!
# Fleets in which one run goes on

When all other ceremonies of a fleet are over, what an input does to the fleet is what it does to
the one run that goes on (`Run.meet`, `Fleet.Lone.step`).
-/

namespace Custody

open Ceremony

namespace Run

/-- What an input does to a run, before it reads: the effects, the hub and the run after it. -/
def meet (hub : Hub) (run : Run) : Fleet.Input → List Effect × Hub × Run
  | .outside ops => ([], (hub.run (ops.map Outside.operation)).2, run)
  | .attach number =>
    if number = run.id ∧ run.phase.awaitsAttachment = true then
      match hub.subscribe run.channel with
      | .error e => Fleet.advance hub run (.attachFailed e.toError)
      | .ok (receiver, hub) => Fleet.advance hub { run with receiver := some receiver } .attached
    else ([], hub, run)
  | .event number e => if number = run.id then Fleet.advance hub run e else ([], hub, run)

theorem advance_id_ceremony (hub : Hub) (run : Run) (e : Event) :
    (Fleet.advance hub run e).2.2.id = run.id ∧
      (Fleet.advance hub run e).2.2.ceremony = run.ceremony := by
  rw [advance_eq]
  split <;> exact ⟨rfl, rfl⟩

theorem meet_id_ceremony (hub : Hub) (run : Run) (input : Fleet.Input) :
    (run.meet hub input).2.2.id = run.id ∧
      (run.meet hub input).2.2.ceremony = run.ceremony := by
  unfold meet
  split
  · exact ⟨rfl, rfl⟩
  · split
    · split
      · exact advance_id_ceremony ..
      · exact advance_id_ceremony ..
    · exact ⟨rfl, rfl⟩
  · split
    · exact advance_id_ceremony ..
    · exact ⟨rfl, rfl⟩

/-- What does not concern a run asks for nothing and leaves it as it is. -/
theorem meet_of_not_isFor (hub : Hub) {run : Run} {input : Fleet.Input}
    (h : input.isFor run.id = false) :
    (run.meet hub input).1 = [] ∧ (run.meet hub input).2.2 = run := by
  cases input with
  | outside ops => exact ⟨rfl, rfl⟩
  | attach number => simp_all [meet, Fleet.Input.isFor]
  | event number e => simp_all [meet, Fleet.Input.isFor]

end Run

namespace Fleet

/-- The run is the last of the fleet, and all others are older and over. -/
def Lone (fleet : Fleet) (run : Run) : Prop :=
  ∃ older, fleet.runs = older ++ [run] ∧
    ∀ r ∈ older, r.id < run.id ∧ r.phase.outcome?.isSome = true

variable {fleet : Fleet} {run next : Run}

theorem Lone.run? (h : fleet.Lone run) : fleet.run? run.id = some run := by
  obtain ⟨older, hruns, hover⟩ := h
  have hnone : older.find? (·.id == run.id) = none := by
    simpa using fun r hr => Nat.ne_of_lt (hover r hr).1
  simp [Fleet.run?, hruns, hnone]

theorem Lone.unique (h : fleet.Lone run) (h' : fleet.Lone next) : run = next := by
  obtain ⟨older, hruns, -⟩ := h
  obtain ⟨older', hruns', -⟩ := h'
  simpa using congrArg List.getLast? (hruns.symm.trans hruns')

/-- The run is put back. -/
theorem Lone.put (h : fleet.Lone run) (hid : next.id = run.id) : (fleet.put next).Lone next := by
  obtain ⟨older, hruns, hover⟩ := h
  have holder : older.map (fun other => if other.id = next.id then next else other) = older := by
    conv_rhs => rw [← List.map_id older]
    exact List.map_congr_left fun r hr =>
      if_neg (hid ▸ Nat.ne_of_lt (hover r hr).1)
  refine ⟨older, ?_, hid ▸ hover⟩
  rw [Fleet.put, hruns, List.map_append, holder, List.map_singleton, if_pos hid.symm]

/-- A run that is over is put back. -/
theorem Lone.put_other (h : fleet.Lone run) {other : Run} (hid : other.id < run.id)
    (hover : other.phase.outcome?.isSome = true) : (fleet.put other).Lone run := by
  obtain ⟨older, hruns, hall⟩ := h
  refine ⟨older.map fun r => if r.id = other.id then other else r, ?_, ?_⟩
  · simp [Fleet.put, hruns, Nat.ne_of_gt hid]
  · intro r hr
    obtain ⟨old, hold, rfl⟩ := List.mem_map.1 hr
    split
    · exact ⟨hid, hover⟩
    · exact hall old hold

theorem Lone.of_runs {after : Fleet} (h : fleet.Lone run) (hruns : after.runs = fleet.runs) :
    after.Lone run := by
  obtain ⟨older, hold, hover⟩ := h
  exact ⟨older, hruns.trans hold, hover⟩

/-- Nothing happens to a run that is over. -/
theorem advance_of_over {hub : Hub} {run : Run} (h : run.phase.outcome?.isSome = true) (e : Event) :
    advance hub run e = ([], hub, run) := by
  obtain ⟨number, c, phase, receiver⟩ := run
  cases phase with
  | finished outcome => cases receiver <;> rfl
  | _ => cases h

theorem attach_of_over (fleet : Fleet) {run : Run} (h : run.phase.outcome?.isSome = true) :
    fleet.attach run = ([], fleet) := by
  have hawaits : ¬ run.phase.awaitsAttachment = true := fun ha => by
    rw [Phase.outcome?_of_awaitsAttachment ha] at h
    cases h
  simp [attach, hawaits]

theorem Lone.outcome?_of_run? (h : fleet.Lone run) {number : Nat} (hne : number ≠ run.id)
    {other : Run} (hother : fleet.run? number = some other) :
    other.id < run.id ∧ other.phase.outcome?.isSome = true := by
  have hid := id_of_run? hother
  obtain ⟨older, hruns, hover⟩ := h
  have hmem := mem_of_run? hother
  rw [hruns, List.mem_append, List.mem_singleton] at hmem
  rcases hmem with hmem | rfl
  · exact hover other hmem
  · exact absurd hid.symm hne

/-- **What an input does to the run that goes on**, before it reads. -/
theorem Lone.perform (h : fleet.Lone run) (input : Input) :
    (fleet.perform input).1.effects = (run.meet fleet.hub input).1.map (run.id, ·) ∧
      (fleet.perform input).2.hub = (run.meet fleet.hub input).2.1 ∧
      (fleet.perform input).2.Lone (run.meet fleet.hub input).2.2 := by
  have hself := h.run?
  cases input with
  | outside ops => exact ⟨rfl, rfl, h.of_runs rfl⟩
  | event number e =>
    by_cases hn : number = run.id
    · subst hn
      simp only [Fleet.perform, hself, Run.meet, if_true]
      exact ⟨trivial, rfl, (h.of_runs rfl).put (Run.advance_id_ceremony fleet.hub run e).1⟩
    · simp only [Fleet.perform, Run.meet, if_neg hn]
      cases hother : fleet.run? number with
      | none => exact ⟨rfl, rfl, h⟩
      | some other =>
        obtain ⟨hid, hover⟩ := h.outcome?_of_run? hn hother
        simp only [advance_of_over hover]
        exact ⟨rfl, rfl, h.put_other hid hover⟩
  | attach number =>
    by_cases hn : number = run.id
    · subst hn
      by_cases hp : run.phase.awaitsAttachment = true
      · simp only [Fleet.perform, hself, Run.meet, Fleet.attach, hp, and_self, if_true, Run.channel]
        cases fleet.hub.subscribe run.ceremony.channel.name with
        | error e =>
          exact ⟨rfl, rfl, (h.of_runs rfl).put (Run.advance_id_ceremony fleet.hub run _).1⟩
        | ok opened =>
          exact ⟨rfl, rfl, (h.of_runs rfl).put (Run.advance_id_ceremony opened.2
            { run with receiver := some opened.1 } .attached).1⟩
      · simp only [Fleet.perform, hself, Run.meet, Fleet.attach, hp]
        exact ⟨rfl, rfl, h⟩
    · simp only [Fleet.perform, Run.meet, hn, false_and, if_false]
      cases hother : fleet.run? number with
      | none => exact ⟨rfl, rfl, h⟩
      | some other =>
        simp only [attach_of_over fleet (h.outcome?_of_run? hn hother).2]
        exact ⟨rfl, trivial, h⟩

/-- Runs that are over do not read. -/
theorem settleAll_append_of_over {older : List Run}
    (h : ∀ r ∈ older, r.phase.outcome?.isSome = true) (hub : Hub) (more : List Run) :
    settleAll hub (older ++ more) =
      ((settleAll hub more).1, older ++ (settleAll hub more).2) := by
  induction older with
  | nil => rfl
  | cons r rest ih =>
    obtain ⟨hr, hrest⟩ := List.forall_mem_cons.1 h
    have hsame : settleRun hub r = (hub, r) := by
      refine Run.settleRun_of_phase_ne fun hp => ?_
      rw [hp] at hr
      cases hr
    simp [settleAll, hsame, ih hrest]

/-- The run reads, and nobody else does. -/
theorem Lone.settle (h : fleet.Lone run) :
    fleet.settle.hub = (settleRun fleet.hub run).1 ∧
      fleet.settle.Lone (settleRun fleet.hub run).2 := by
  obtain ⟨older, hruns, hover⟩ := h
  have hsettled : fleet.settle = { fleet with
      hub := (settleRun fleet.hub run).1, runs := older ++ [(settleRun fleet.hub run).2] } := by
    simp [Fleet.settle, hruns, settleAll_append_of_over fun r hr => (hover r hr).2, settleAll]
  rw [hsettled]
  exact ⟨rfl, older, rfl, by simpa [settleRun_id] using hover⟩

/-- **What an input does** to a fleet in which one run goes on. -/
theorem Lone.step (h : fleet.Lone run) (input : Input) :
    (fleet.step input).1.effects = (run.meet fleet.hub input).1.map (run.id, ·) ∧
      (fleet.step input).2.hub =
        (settleRun (run.meet fleet.hub input).2.1 (run.meet fleet.hub input).2.2).1 ∧
      (fleet.step input).2.Lone
        (settleRun (run.meet fleet.hub input).2.1 (run.meet fleet.hub input).2.2).2 := by
  obtain ⟨heffects, hhub, hlone⟩ := h.perform input
  obtain ⟨hhub', hlone'⟩ := hlone.settle
  rw [hhub] at hhub' hlone'
  exact ⟨heffects, hhub', hlone'⟩

/-! ## Fleets in which nothing goes on -/

/-- All runs of the fleet have smaller numbers and are over. -/
def Idle (number : Nat) (fleet : Fleet) : Prop :=
  ∀ r ∈ fleet.runs, r.id < number ∧ r.phase.outcome?.isSome = true

variable {number : Nat}

/-- A ceremony that is started in such a fleet goes on alone. -/
theorem Idle.lone_launch (h : fleet.Idle number) (c : Ceremony) :
    (fleet.launch number c).2.Lone ⟨number, c, c.start.1, none⟩ :=
  ⟨fleet.runs, rfl, h⟩

/-- When the run is over, nothing goes on. -/
theorem Lone.idle (h : fleet.Lone run) (hover : run.phase.outcome?.isSome = true) :
    fleet.Idle (run.id + 1) := by
  obtain ⟨older, hruns, hall⟩ := h
  intro r hr
  rw [hruns, List.mem_append, List.mem_singleton] at hr
  rcases hr with hr | rfl
  · exact ⟨Nat.lt_succ_of_lt (hall r hr).1, (hall r hr).2⟩
  · exact ⟨Nat.lt_succ_self _, hover⟩

theorem Idle.perform (h : fleet.Idle number) (input : Input) :
    (fleet.perform input).1.effects = [] ∧ (fleet.perform input).2.Idle number ∧
      (fleet.perform input).2.hub = (fleet.hub.run (input.outsides.map Outside.operation)).2 := by
  cases input with
  | outside ops => exact ⟨rfl, h, rfl⟩
  | attach id =>
    cases hrun : fleet.run? id with
    | none =>
      simp only [Fleet.perform, hrun]
      exact ⟨trivial, h, rfl⟩
    | some run =>
      simp only [Fleet.perform, hrun, attach_of_over fleet (h run (mem_of_run? hrun)).2]
      exact ⟨rfl, h, rfl⟩
  | event id e =>
    cases hrun : fleet.run? id with
    | none =>
      simp only [Fleet.perform, hrun]
      exact ⟨trivial, h, rfl⟩
    | some run =>
      have hover := h run (mem_of_run? hrun)
      simp only [Fleet.perform, hrun, advance_of_over hover.2]
      refine ⟨rfl, fun r hr => ?_, rfl⟩
      obtain ⟨old, hold, rfl⟩ := List.mem_map.1 hr
      split
      · exact hover
      · exact h old hold

/-- **Where nothing goes on, an input asks for nothing**, nothing goes on after it, and only others
have done something to the hub. -/
theorem Idle.step (h : fleet.Idle number) (input : Input) :
    (fleet.step input).1.effects = [] ∧ (fleet.step input).2.Idle number ∧
      (fleet.step input).2.hub = (fleet.hub.run (input.outsides.map Outside.operation)).2 := by
  obtain ⟨heffects, hidle, hhub⟩ := h.perform input
  have hread := settleAll_append_of_over (fun r hr => (hidle r hr).2)
    (fleet.perform input).2.hub []
  rw [List.append_nil] at hread
  have hsame : (fleet.step input).2 = (fleet.perform input).2 := by
    show (fleet.perform input).2.settle = _
    simp [Fleet.settle, hread, settleAll]
  rw [hsame]
  exact ⟨heffects, hidle, hhub⟩

end Fleet

end Custody
