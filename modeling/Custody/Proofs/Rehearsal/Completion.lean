import Custody.Proofs.Rehearsal.Interplay
/-!
# The end of a ceremony and of what its cluster publishes

Between two moments a ceremony and its cluster make only so many moves: each leaves less to do
(`Interplay.toDo_lt`). So time always comes to go on, and the ceremony to its end
(`Interplay.Good.exists_end`).
-/

namespace Custody

open Ceremony

namespace Rehearsal

namespace Interplay

variable {T : Terms} {s t : Interplay}

/-- How much there is still to be asked for and to be answered, together with what the trigger sets
going. -/
def ahead (T : Terms) (s : Interplay) : Nat :=
  match s.run.phase with
  | .subscribing => 2 * T.payloads.length + 8
  | .triggering early =>
    (if early then 1 else 2) + if .notify ∈ s.asked then 2 * T.payloads.length + 6 else 0
  | .attaching => 1
  | _ => 0

/-- Nothing is ahead of one who waits for a result, or is over. -/
theorem ahead_eq_zero (h : s.run.phase = .waiting ∨ s.run.phase.outcome?.isSome = true) :
    s.ahead T = 0 := by
  unfold ahead
  generalize s.run.phase = phase at h
  cases phase <;> simp_all [Phase.outcome?]

/-- How many moves the ceremony and its cluster can make at the most before time goes on. -/
def toDo (T : Terms) (s : Interplay) : Nat :=
  s.ahead T + s.publisher.elim 0 (·.work s.now) + (s.run.kept s.hub).length +
    if s.run.phase.outcome?.isSome then 0 else 1

theorem toDo_notify (hT : T.Fit) (h : s.Good T) (hm : s.move? T .notify = some t) :
    t.toDo T < s.toDo T := by
  simp only [move?, Option.ite_none_right_eq_some, Option.some.injEq] at hm
  obtain ⟨hmem, rfl⟩ := hm
  cases h.progress with
  | after hattends => exact absurd hmem hattends.notify_not_mem
  | before hasks hp hanswering hnow hown =>
    obtain ⟨early, hphase, hasked⟩ : ∃ early, s.run.phase = .triggering early ∧
        s.asked = [.notify] := by
      cases hasks with
      | subscription _ hasked => simp [hasked] at hmem
      | triggerFirst hp hasked => exact ⟨false, hp, hasked⟩
      | triggerNext hf hasked => exact ⟨true, hf.phase_eq, hasked⟩
    have hpublisher := publisher_eq hT hnow
    simp only [toDo, ahead, hphase, hasked, hp, hpublisher]
    cases T.script with
    | none => simp
    | some payloads => simp [Responder.publisher, Publisher.work, Terms.responder, hnow]

theorem length_kept_event_le (s : Interplay) (e : Event) :
    ((s.run.meet s.hub (.event s.run.id e)).2.2.kept
      (s.run.meet s.hub (.event s.run.id e)).2.1).length ≤ (s.run.kept s.hub).length := by
  simp only [Run.meet, if_true]
  exact (Run.kept_advance s.hub s.run e).length_le

/-- A turn that leaves less to ask for and to read leaves less to do. -/
theorem toDo_of_lt (hpublisher : t.publisher = s.publisher) (hnow : t.now = s.now)
    (hgoes : s.run.phase.outcome? = none)
    (hlt : t.ahead T + (t.run.kept t.hub).length < s.ahead T + (s.run.kept s.hub).length) :
    t.toDo T < s.toDo T := by
  simp only [toDo, hpublisher, hnow, hgoes, Option.isSome_none, Bool.false_eq_true, if_false]
  split <;> omega

theorem toDo_acknowledge (h : s.Good T) (hm : s.move? T .acknowledge = some t) :
    t.toDo T < s.toDo T := by
  simp only [move?, Option.ite_none_right_eq_some, Option.some.injEq] at hm
  obtain ⟨hanswering, rfl⟩ := hm
  have hkept := s.length_kept_event_le .acknowledged
  obtain ⟨-, hphase⟩ := Setup.meet_event s.hub s.run .acknowledged
  have hlt (hahead : ahead T ({ s with answering := false }.tell (.event s.run.id .acknowledged)) <
      s.ahead T) (hgoes : s.run.phase.outcome? = none) :
      toDo T ({ s with answering := false }.tell (.event s.run.id .acknowledged)) < s.toDo T :=
    toDo_of_lt rfl rfl hgoes (Nat.add_lt_add_of_lt_of_le hahead hkept)
  cases h.progress with
  | before _ _ hno => simp [hno] at hanswering
  | after hattends =>
    cases hattends with
    | unanswered hp hasked =>
      rw [hp, Move.acknowledgedLate.step_eq] at hphase
      exact hlt (by simp [ahead, tell, hp, hphase, hasked]) (by rw [hp]; rfl)
    | early hf hasked =>
      have hp := hf.phase_eq
      rw [hp, Move.acknowledgedEarly.step_eq] at hphase
      refine hlt ?_ (by rw [hp]; rfl)
      rw [ahead_eq_zero (.inl hphase)]
      simp [ahead, hp, hasked]
    | asking _ _ hno => simp [hno] at hanswering
    | attending _ _ hno => simp [hno] at hanswering
    | elapsed _ _ hno => simp [hno] at hanswering

theorem toDo_attach (h : s.Good T) (hm : s.move? T .attach = some t) : t.toDo T < s.toDo T := by
  simp only [move?, Option.ite_none_right_eq_some, Option.some.injEq] at hm
  obtain ⟨hmem, rfl⟩ := hm
  have hsound := h.sane.counted.sound
  cases h.progress with
  | before hasks =>
    cases hasks with
    | subscription hp hasked =>
      obtain ⟨heffects, hf⟩ := Run.meet_attach_follows hsound false hp
      have hnext := hf.phase_eq
      refine toDo_of_lt rfl rfl (by rw [hp]; rfl) (Nat.add_lt_add_of_lt_of_le ?_
        (Nat.le_trans hf.length_kept_le (Nat.zero_le _)))
      simp [ahead, tell, hp, hnext, hasked, heffects]
      omega
    | triggerFirst _ hasked => simp [hasked] at hmem
    | triggerNext _ hasked => simp [hasked] at hmem
  | after hattends =>
    cases hattends with
    | asking hp hasked =>
      obtain ⟨-, hf⟩ := Run.meet_attach_follows hsound true hp
      refine toDo_of_lt rfl rfl (by rw [hp]; rfl) (Nat.add_lt_add_of_lt_of_le ?_
        (Nat.le_trans hf.length_kept_le (Nat.zero_le _)))
      rw [ahead_eq_zero hf.waits_or_over]
      simp [ahead, hp]
    | unanswered _ hasked => simp [hasked] at hmem
    | early _ hasked => simp [hasked] at hmem
    | attending _ hasked => simp [hasked] at hmem
    | elapsed _ hasked => simp [hasked] at hmem

theorem toDo_look (h : s.Good T) (hm : s.move? T .look = some t) : t.toDo T < s.toDo T := by
  obtain ⟨hp, hkept, rfl⟩ := move?_look hm
  obtain ⟨aired, hf, -⟩ := h.of_waiting hp
  have hsound := h.sane.counted.sound
  have hlt := Run.length_kept_look_lt hsound h.sane.counted.bound hp hkept
  have hahead := ahead_eq_zero (T := T)
    (s := { s with hub := (s.run.look s.hub).1, run := (s.run.look s.hub).2 })
    (hf.look hsound).waits_or_over
  exact toDo_of_lt rfl rfl (by rw [hp]; rfl)
    (Nat.add_lt_add_of_le_of_lt (hahead ▸ Nat.zero_le _) hlt)

theorem toDo_deadline (hT : T.Fit) (h : s.Good T) (hm : s.move? T .deadline = some t) :
    t.toDo T < s.toDo T := by
  obtain ⟨-, hlt, hgoes, rfl⟩ := move?_deadline hT hm
  have hkept := s.length_kept_event_le .deadline
  obtain ⟨-, hphase⟩ := Setup.meet_event s.hub s.run .deadline
  rw [h.waiting_of_late (by omega) hgoes, Move.waitElapsed.step_eq] at hphase
  have hover : (s.tell (.event s.run.id .deadline)).run.phase.outcome?.isSome = true :=
    congrArg (·.outcome?.isSome) hphase
  have hahead : ahead T (s.tell (.event s.run.id .deadline)) = 0 := ahead_eq_zero (.inr hover)
  have hread : ((s.tell (.event s.run.id .deadline)).run.kept
      (s.tell (.event s.run.id .deadline)).hub).length ≤ (s.run.kept s.hub).length := hkept
  have hpublisher : (s.tell (.event s.run.id .deadline)).publisher = s.publisher := rfl
  have hnow : (s.tell (.event s.run.id .deadline)).now = s.now := rfl
  simp only [toDo, hahead, hpublisher, hnow, hover, hgoes, if_true, Option.isSome_none,
    Bool.false_eq_true, if_false]
  omega

theorem toDo_publish (h : s.Good T) (hm : s.move? T .publish = some t) :
    t.toDo T < s.toDo T := by
  obtain ⟨p, op, next, hpublisher, hturn, rfl⟩ := move?_publish hm
  have hwork := Publisher.work_lt hturn
  have hkept : (s.run.kept (s.hub.after op)).length ≤
      (s.run.kept s.hub).length + if op.isSome then 1 else 0 := by
    cases op with
    | none => exact Nat.le_refl _
    | some op => exact h.sane.counted.bound.length_kept_outside_le h.sane.counted.sound op
  have hahead : ahead T { s with hub := s.hub.after op, publisher := some next } = s.ahead T := rfl
  simp only [toDo, hahead, hpublisher, Option.elim_some]
  omega

/-- **Each move leaves less to do**, and takes no time. -/
theorem toDo_lt (hT : T.Fit) (h : s.Good T) {m : Move} (hm : s.move? T m = some t) :
    t.now = s.now ∧ t.toDo T < s.toDo T := by
  cases m with
  | notify =>
    refine ⟨?_, toDo_notify hT h hm⟩
    simp only [move?, Option.ite_none_right_eq_some, Option.some.injEq] at hm
    rw [← hm.2]
  | acknowledge =>
    refine ⟨?_, toDo_acknowledge h hm⟩
    simp only [move?, Option.ite_none_right_eq_some, Option.some.injEq] at hm
    rw [← hm.2]
    rfl
  | attach =>
    refine ⟨?_, toDo_attach h hm⟩
    simp only [move?, Option.ite_none_right_eq_some, Option.some.injEq] at hm
    rw [← hm.2]
    rfl
  | look =>
    obtain ⟨-, -, rfl⟩ := move?_look hm
    exact ⟨rfl, toDo_look h hm⟩
  | deadline =>
    obtain ⟨-, -, -, rfl⟩ := move?_deadline hT hm
    exact ⟨rfl, toDo_deadline hT h hm⟩
  | publish =>
    obtain ⟨p, op, next, -, -, rfl⟩ := move?_publish hm
    exact ⟨rfl, toDo_publish h hm⟩

/-- **A ceremony can always be brought to its end**, by moves of its own and of its cluster and by
time that goes on. -/
theorem Good.exists_end (hT : T.Fit) (h : s.Good T) :
    ∃ t, Relation.ReflTransGen (Next T) s t ∧ t.run.phase.outcome?.isSome = true := by
  -- the time until the deadline goes down, or stays while there is less to do
  generalize htime : T.deadline - s.now = time
  generalize hwork : s.toDo T = work
  induction time using Nat.strong_induction_on generalizing s work with
  | h time ihtime =>
    induction work using Nat.strong_induction_on generalizing s with
    | h work ihwork =>
      by_cases hover : s.run.phase.outcome?.isSome = true
      · exact ⟨s, .refl, hover⟩
      · by_cases hidle : ∀ m, s.move? T m = none
        · have htick := h.tick hidle
          have hin := htick.sane.inTime.resolve_right hover
          simp only at hin
          obtain ⟨t, hreach, hend⟩ :=
            ihtime (T.deadline - (s.now + 1)) (by omega) htick rfl _ rfl
          exact ⟨t, .head (.tick hidle) hreach, hend⟩
        · obtain ⟨m, hm⟩ := not_forall.1 hidle
          obtain ⟨next, hm⟩ := Option.ne_none_iff_exists'.1 hm
          obtain ⟨hnow, hlt⟩ := toDo_lt hT h hm
          have hnext := h.next hT (.move hm)
          obtain ⟨t, hreach, hend⟩ := ihwork _ (hwork ▸ hlt) hnext (hnow ▸ htime) rfl
          exact ⟨t, .head (.move hm) hreach, hend⟩

end Interplay

end Rehearsal

end Custody
