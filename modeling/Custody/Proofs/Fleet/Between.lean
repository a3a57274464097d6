import Custody.Proofs.Fleet.Isolation
import Custody.Proofs.Fleet.Schedule
/-!
# Runs between inputs

After each input every run that waits has read all that there is (`Fleet.InOrder.kept_step`), and a
run that does not wait is where the input has left it (`Fleet.run?_step`). Inputs that happen to
others leave it there as well (`Fleet.run?_steps`).
-/

namespace Custody

open Ceremony

theorem Hub.receiver?_skim {hub : Hub} {id : ReceiverId} {r : Receiver}
    (hr : hub.receiver? id = some r) (n : Nat) :
    (hub.skim id n).receiver? id = some { r with pending := r.pending.drop n } := by
  have hfind : hub.receivers.find? (fun r => r.id == id) = some r := hr
  have hids : ((fun r : Receiver => r.id == id) ∘ fun other : Receiver =>
      if other.id = id then { other with pending := other.pending.drop n } else other) =
        fun r => r.id == id := by
    funext other
    by_cases ho : other.id = id <;> simp [ho]
  rw [receiver?, skim, List.find?_map, hids, hfind, Option.map_some, if_pos (id_of_receiver? hr)]

namespace Run

variable {hub : Hub} {run : Run}

theorem settleRun_of_phase_ne (hp : run.phase ≠ .waiting) :
    Fleet.settleRun hub run = (hub, run) := by
  unfold Fleet.settleRun
  split
  · next h _ => exact absurd h hp
  · rfl

/-- A run that goes on when it has read has not been over before. -/
theorem outcome?_of_settleRun (h : (Fleet.settleRun hub run).2.phase.outcome? = none) :
    run.phase.outcome? = none := by
  by_contra hover
  have hstay : Fleet.settleRun hub run = (hub, run) :=
    settleRun_of_phase_ne fun hp => hover (by rw [hp]; rfl)
  rw [hstay] at h
  exact hover h

/-- A run that has read all there is, and goes on waiting, has nothing left to read. -/
theorem kept_settleRun (hs : hub.Sound) (hb : run.Bound hub)
    (hp : (Fleet.settleRun hub run).2.phase = .waiting) :
    (Fleet.settleRun hub run).2.kept (Fleet.settleRun hub run).1 = [] := by
  have hwait : run.phase = .waiting := by
    by_contra hne
    exact hne (by rwa [settleRun_of_phase_ne hne] at hp)
  obtain ⟨id, hid⟩ := Option.isSome_iff_exists.1 (hb.isSome_receiver.trans (by rw [hwait]; rfl))
  obtain ⟨r, hr, -⟩ := hb.receiver?_eq id hid
  have hskim : (hub.skim id r.pending.length).receiver? id = some { r with pending := [] } := by
    simpa using Hub.receiver?_skim hr r.pending.length
  have hrelease (phase : Phase) (effects : List Effect) :
      kept (Fleet.release (hub.skim id r.pending.length) { run with phase } effects).1
        (Fleet.release (hub.skim id r.pending.length) { run with phase } effects).2 = [] := by
    by_cases he : .release ∈ effects
    · rw [release_skim hid he]
      rfl
    · rw [release_of_not_mem he]
      simp [kept, hid, hskim]
  rw [settleRun_eq hs hwait hid hr]
  exact hrelease _ _

end Run

namespace Fleet

variable {fleet : Fleet} {id : Nat} {run : Run}

/-! ## Runs that wait -/

theorem InOrder.kept_play (h : fleet.InOrder) (hrun : fleet.run? id = some run) {acts : List Act}
    (ha : ∀ a ∈ acts, a.concerns run.channel id = false) :
    (fleet.play acts).run? id = some run ∧ run.kept (fleet.play acts).hub = run.kept fleet.hub := by
  induction acts generalizing fleet with
  | nil => exact ⟨hrun, rfl⟩
  | cons a rest ih =>
    obtain ⟨hself, hkept⟩ := h.kept_act hrun (ha a List.mem_cons_self)
    obtain ⟨hself', hkept'⟩ := ih (h.act a) hself fun b hb => ha b (List.mem_cons_of_mem a hb)
    exact ⟨hself', hkept'.trans hkept⟩

/-- A run that waits when all have read has nothing left to read. -/
theorem kept_settleAll {opened : Nat} (before todo : List Run) {hub : Hub}
    (h : (Fleet.mk hub opened (before ++ todo)).InOrder)
    (hd : ((before ++ todo).map Run.id).Nodup) (hid : id ∈ todo.map Run.id)
    (hrun : (Fleet.mk (settleAll hub todo).1 opened (before ++ (settleAll hub todo).2)).run? id =
      some run) (hp : run.phase = .waiting) : run.kept (settleAll hub todo).1 = [] := by
  induction todo generalizing hub before with
  | nil => cases hid
  | cons first rest ih =>
    obtain ⟨n, hfirst⟩ := exists_play_settleRun h hd
    have horder : (Fleet.mk (settleRun hub first).1 opened
        ((before ++ [(settleRun hub first).2]) ++ rest)).InOrder := hfirst ▸ h.play _
    have hd' : (((before ++ [(settleRun hub first).2]) ++ rest).map Run.id).Nodup := by
      simpa [settleRun_id] using hd
    have hall : before ++ (settleAll hub (first :: rest)).2 =
        (before ++ [(settleRun hub first).2]) ++ (settleAll (settleRun hub first).1 rest).2 := by
      simp [settleAll]
    rw [hall] at hrun
    by_cases hlater : id ∈ rest.map Run.id
    · exact ih _ horder hd' hlater hrun
    · -- the run has read, and those who read after it leave it alone
      obtain rfl : id = first.id := (List.mem_cons.1 hid).resolve_right hlater
      obtain ⟨acts, hacts, hlooks⟩ := exists_play_settleAll _ rest horder hd'
      have hmiddle : (Fleet.mk (settleRun hub first).1 opened
          (before ++ [(settleRun hub first).2] ++ rest)).run? first.id =
            some (settleRun hub first).2 := by
        rw [List.append_assoc, List.singleton_append, ← settleRun_id hub first]
        exact run?_middle (by simpa [settleRun_id] using hd)
      obtain ⟨hself, hkept⟩ := horder.kept_play hmiddle fun a ha => by
        obtain ⟨other, hother, rfl⟩ := hlooks a ha
        have hne : other.id ≠ first.id := fun he => hlater (he ▸ List.mem_map_of_mem hother)
        simpa [Act.concerns] using hne
      obtain rfl := Option.some.inj ((hacts ▸ hself).symm.trans hrun)
      have hread := Run.kept_settleRun h.sound (h.bound first.id first (run?_middle hd)) hp
      exact (congrArg (fun fleet => Run.kept fleet.hub _) hacts).trans (hkept.trans hread)

/-! ## Fleets after inputs -/

theorem capacity_step (h : fleet.InOrder) (hd : (fleet.runs.map Run.id).Nodup) {input : Input}
    (hplain : input.IsPlain) : (fleet.step input).2.hub.capacity = fleet.hub.capacity := by
  obtain ⟨acts, hacts, -⟩ := exists_play_step h hd hplain
  rw [hacts, h.capacity_play]

theorem InOrder.steps (h : fleet.InOrder) (hd : (fleet.runs.map Run.id).Nodup)
    {inputs : List Input} (hin : ∀ input ∈ inputs, input.IsPlain) :
    (fleet.steps inputs).InOrder ∧ ((fleet.steps inputs).runs.map Run.id).Nodup ∧
      (fleet.steps inputs).hub.capacity = fleet.hub.capacity := by
  obtain ⟨acts, hacts, -⟩ := exists_play_steps h hd hin
  rw [hacts, ids_play, h.capacity_play]
  exact ⟨h.play acts, hd, rfl⟩

theorem steps_append (fleet : Fleet) (first second : List Input) :
    fleet.steps (first ++ second) = (fleet.steps first).steps second := by
  induction first generalizing fleet with
  | nil => rfl
  | cons input rest ih => exact ih (fleet.step input).2

/-- A run that waits after an input has nothing left to read. -/
theorem InOrder.kept_step (h : fleet.InOrder) (hd : (fleet.runs.map Run.id).Nodup) {input : Input}
    (hin : input.IsPlain) (hrun : (fleet.step input).2.run? id = some run)
    (hp : run.phase = .waiting) : run.kept (fleet.step input).2.hub = [] := by
  have hids := ids_perform fleet hin
  have horder := h.perform hin
  have hmem : id ∈ (fleet.step input).2.runs.map Run.id :=
    id_of_run? hrun ▸ List.mem_map_of_mem (mem_of_run? hrun)
  rw [show (fleet.step input).2 = (fleet.perform input).2.settle from rfl] at hrun hmem ⊢
  generalize (fleet.perform input).2 = performed at hids horder hrun hmem ⊢
  rw [ids_settle horder (hids ▸ hd)] at hmem
  exact kept_settleAll [] performed.runs horder (hids ▸ hd) hmem hrun hp

theorem InOrder.kept_steps (h : fleet.InOrder) (hd : (fleet.runs.map Run.id).Nodup)
    {inputs : List Input} (hne : inputs ≠ []) (hin : ∀ input ∈ inputs, input.IsPlain)
    (hrun : (fleet.steps inputs).run? id = some run) (hp : run.phase = .waiting) :
    run.kept (fleet.steps inputs).hub = [] := by
  obtain ⟨before, last, rfl⟩ : ∃ before last, inputs = before ++ [last] :=
    ⟨_, _, (List.dropLast_append_getLast hne).symm⟩
  rw [steps_append] at hrun ⊢
  obtain ⟨horder, hnodup, -⟩ := h.steps hd fun input hmem => hin input (List.mem_append_left _ hmem)
  exact horder.kept_step hnodup (hin last (by simp)) hrun hp

/-! ## Runs that do not wait -/

/-- A look changes only runs that wait. -/
theorem run?_settle (h : fleet.InOrder) (hd : (fleet.runs.map Run.id).Nodup)
    (hrun : fleet.run? id = some run) (hp : run.phase ≠ .waiting) :
    fleet.settle.run? id = some run := by
  obtain ⟨acts, hacts, hlooks⟩ := exists_play_settle h hd
  rw [hacts]
  clear hacts h hd
  induction acts generalizing fleet with
  | nil => exact hrun
  | cons a rest ih =>
    obtain ⟨other, rfl⟩ := hlooks a List.mem_cons_self
    refine ih ?_ fun b hb => hlooks b (List.mem_cons_of_mem _ hb)
    cases hother : fleet.run? other with
    | none => rwa [act_turn_of_none hother]
    | some run' =>
      obtain ⟨-, hself, hothers⟩ := act_turn hother .look
      by_cases ho : id = other
      · subst ho
        obtain rfl := Option.some.inj (hrun.symm.trans hother)
        rw [hself, Run.take, Run.look_of_not_waiting fleet.hub fun h => hp h.1]
      · rw [hothers id ho, hrun]

theorem run?_step (h : fleet.InOrder) (hd : (fleet.runs.map Run.id).Nodup) {input : Input}
    (hin : input.IsPlain) (hrun : (fleet.perform input).2.run? id = some run)
    (hp : run.phase ≠ .waiting) : (fleet.step input).2.run? id = some run := by
  have hnodup := (congrArg List.Nodup (ids_perform fleet hin)).mpr hd
  exact run?_settle (h.perform hin) hnodup hrun hp

/-- The input happens to the run with this number. -/
def Input.isFor (id : Nat) : Input → Bool
  | .outside _ => false
  | .attach number => number == id
  | .event number _ => number == id

/-- Inputs that do not happen to a run that does not wait leave it where it is. -/
theorem run?_steps (h : fleet.InOrder) (hd : (fleet.runs.map Run.id).Nodup)
    (hrun : fleet.run? id = some run) (hp : run.phase ≠ .waiting) {inputs : List Input}
    (hplain : ∀ input ∈ inputs, input.IsPlain) (hfor : ∀ input ∈ inputs, input.isFor id = false) :
    (fleet.steps inputs).run? id = some run := by
  induction inputs generalizing fleet with
  | nil => exact hrun
  | cons input rest ih =>
    have hinput := hplain input List.mem_cons_self
    have hnot := hfor input List.mem_cons_self
    have hperform : (fleet.perform input).2.run? id = some run := by
      have hturn {number : Nat} (hn : (number == id) = false) (t : Turn) :
          (fleet.act (.turn number t)).run? id = some run := by
        cases hother : fleet.run? number with
        | none => rwa [act_turn_of_none hother]
        | some other =>
          have hne : id ≠ number := fun he => by simp [he] at hn
          rw [(act_turn hother t).2.2 id hne, hrun]
      cases input with
      | outside ops => exact hrun
      | attach number => exact hturn hnot .attach
      | event number e =>
        obtain ⟨s, rfl⟩ := hinput
        exact hturn hnot (.signal s)
    exact ih (h.step hd hinput) (nodup_ids_step h hd hinput) (run?_step h hd hinput hperform hp)
      (fun later hlater => hplain later (List.mem_cons_of_mem input hlater))
      fun later hlater => hfor later (List.mem_cons_of_mem input hlater)

end Fleet

end Custody
