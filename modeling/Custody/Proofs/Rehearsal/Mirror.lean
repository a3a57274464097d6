import Custody.Proofs.Rehearsal.Tracking
/-!
# Rehearsals of a scripted cluster

A rehearsal takes one of the many courses that a ceremony and its cluster can take side by side:
each step that it makes while the call goes on is a number of things that can happen next
(`Mirrors.step`), and so is all that it does until the call is over (`Mirrors.runFor`).
-/

namespace Custody

open Ceremony

namespace Rehearsal

variable {S : Setup} {T : Terms} {before : List ActionRequest} {w : World} {s : Interplay}

/-! ## What comes next -/

namespace Setup.IsOn

variable {run : Run} {pending : List Item} {x : Item} {rest : List Item}

/-- While an answer is to come, no time passes. -/
theorem now_eq_start (hon : S.IsOn T) (hg : Going S 0 w run pending) (hp : run.phase ≠ .waiting)
    (hagenda : w.agenda = x :: rest) : w.now = S.start ∧ x.1 = S.start := by
  have hanswer : ∃ item ∈ w.agenda, item.1 = S.start := by
    have hmem : ∀ item ∈ pending, item ∈ w.agenda := fun item hitem =>
      (List.mem_filter.1 (hg.own.symm.subset (List.mem_append_left _ hitem))).1
    rcases hon.stage_cases hg.stage with ⟨-, rfl⟩ | ⟨-, rfl⟩ | ⟨hwaits, -⟩
    · exact ⟨_, hmem _ List.mem_cons_self, rfl⟩
    · exact ⟨_, hmem _ List.mem_cons_self, rfl⟩
    · exact absurd hwaits hp
  obtain ⟨item, hmem, htime⟩ := hanswer
  have hstart := hg.live.start_le
  have horderly := hg.live.sane.orderly
  rw [hagenda] at hmem horderly
  have hfirst := horderly.le x List.mem_cons_self
  have hlater : x.1 ≤ item.1 := by
    rcases List.mem_cons.1 hmem with rfl | hlater
    · exact Nat.le_refl _
    · exact horderly.tail.le item hlater
  omega

/-- **What comes first for the call** is the answer it waits for, or its deadline. -/
theorem own_first (hon : S.IsOn T) (hg : Going S 0 w run pending) (hagenda : w.agenda = x :: rest)
    (hown : S.owns x = true) :
    (∃ early, run.phase = .triggering early ∧
      x = (S.start, .input (.event S.id .acknowledged))) ∨
    ((run.phase = .subscribing ∨ run.phase = .attaching) ∧
      x = (S.start, .input (.attach S.id))) ∨
    (run.phase = .waiting ∧ x = S.deadlineItem) := by
  have hpending : x ∈ pending ++ [S.deadlineItem] :=
    hg.own.subset (List.mem_filter.2 ⟨hagenda ▸ List.mem_cons_self, hown⟩)
  -- the deadline does not come before the answers
  have hne (hp : run.phase ≠ .waiting) : x ≠ S.deadlineItem := fun he => by
    have htime := (hon.now_eq_start hg hp hagenda).2
    rw [he] at htime
    exact Nat.ne_of_gt hon.start_lt htime
  rcases hon.stage_cases hg.stage with ⟨hp, rfl⟩ | ⟨hp, rfl⟩ | ⟨hp, rfl⟩
  · exact .inl ⟨_, hp, by simpa [hne (by simp [hp])] using hpending⟩
  · refine .inr (.inl ⟨?_, ?_⟩)
    · cases hfirst : S.config.subscribeFirst <;> simp [hp, hfirst]
    · have hne := hne (by rw [hp]; split <;> exact Phase.noConfusion)
      simpa [hne] using hpending
  · exact .inr (.inr ⟨hp, by simpa using hpending⟩)

end Setup.IsOn

namespace Mirrors

/-! ## Answers -/

/-- **The trigger is acknowledged.** -/
theorem acknowledged (h : Mirrors S T before w s) (hon : S.IsOn T) (hlive : Live S 0 w s.run)
    {early : Bool} (hp : s.run.phase = .triggering early) :
    LeadsTo S T before s (w.happen (.input (.event S.id .acknowledged))) := by
  obtain ⟨hasked, hanswering⟩ : s.Stands (.triggering early) := hp ▸ h.stands
  obtain ⟨heffects, -⟩ := Setup.meet_event s.hub s.run .acknowledged
  have hsilent : .notify ∉ (s.run.meet s.hub (.event s.run.id .acknowledged)).1 := by
    rw [heffects, hp]
    cases early <;> simp [Ceremony.step]
  have hmove : s.move? T .acknowledge =
      some ({ s with answering := false }.tell (.event s.run.id .acknowledged)) := by
    simp [Interplay.move?, hanswering]
  rw [← hlive.id]
  refine h.toTracks.happen_of_silent hon hlive (.single (.move hmove)) rfl
    (fun _ => h.now (by rw [hp]; rfl)) hsilent rfl ?_ h.keeps
  simp [Interplay.tell, hasked, hsilent]

/-- **The subscription of a call that has sent its trigger is opened.** -/
theorem attachedLate (h : Mirrors S T before w s) (hon : S.IsOn T) (hlive : Live S 0 w s.run)
    (hp : s.run.phase = .attaching) :
    LeadsTo S T before s (w.happen (.input (.attach S.id))) := by
  have hasked : s.asked = [.subscribe] := (hp ▸ h.stands : s.Stands .attaching)
  have heffects := (Run.meet_attach_follows h.good.sane.counted.sound true hp).1
  rw [if_pos rfl] at heffects
  have hmove : s.move? T .attach =
      some ({ s with asked := s.asked.erase .subscribe }.tell (.attach s.run.id)) := by
    simp [Interplay.move?, hasked]
  rw [← hlive.id]
  refine h.toTracks.happen_of_silent hon hlive (.single (.move hmove)) rfl
    (fun _ => h.now (by rw [hp]; rfl)) (by simp [heffects]) rfl ?_ h.keeps
  simp [Interplay.tell, hasked, heffects]

/-- **The subscription of a call is opened**, which sends its trigger then. -/
theorem attachedEarly (h : Mirrors S T before w s) (hon : S.IsOn T) (hlive : Live S 0 w s.run)
    (hnow : w.now = S.start) (hp : s.run.phase = .subscribing) :
    LeadsTo S T before s (w.happen (.input (.attach S.id))) := by
  obtain ⟨hasked, hnone⟩ : s.Stands .subscribing := hp ▸ h.stands
  have hsound := h.good.sane.counted.sound
  have heffects := (Run.meet_attach_follows hsound false hp).1
  rw [if_neg Bool.false_ne_true] at heffects
  have htime := h.now (by rw [hp]; rfl)
  have hstart : s.now = T.start := by rw [htime, hnow, hon.start]
  have hown : w.responders.filter (·.channel = T.channel) = [] := by
    have hkeeps := h.keeps
    rw [hnone] at hkeeps
    cases hkeeps with
    | idle _ hown => exact hown
  rw [← hlive.id]
  refine h.toTracks.happen hon hlive
    (Interplay.reaches_triggered hon.fit hsound hstart hp hasked) rfl (fun _ => htime) ?_
    List.not_mem_nil ?_
  · rw [heffects, hon.request]
    rfl
  · rw [heffects, List.flatMap_singleton, hnow]
    exact .notified hon rfl hown

/-! ## Other things that happen -/

/-- **The deadline comes**, a part of a millisecond later if the call's time is not a whole number
of them. -/
theorem elapsed (h : Mirrors S T before w s) (hon : S.IsOn T) (hlive : Live S 0 w s.run)
    (hnow : w.now = S.deadline) (hp : s.run.phase = .waiting) :
    LeadsTo S T before s (w.happen (.input (.event S.id .deadline))) := by
  obtain ⟨hasked, hanswering⟩ : s.Stands .waiting := hp ▸ h.stands
  obtain ⟨hover, -⟩ := h.keeps.over_of_ne (hnow ▸ Nat.ne_of_gt hon.start_lt)
  have hle : s.now ≤ T.deadline := by
    rw [h.now (by rw [hp]; rfl), hnow]
    exact hon.deadline_le
  have hlate : Relation.ReflTransGen (Interplay.Next T) s { s with now := T.deadline } := by
    have hreach := Interplay.reaches_later (T := T) (s := s) (n := T.deadline - s.now)
      fun k hk m => Interplay.move?_eq_none (s := { s with now := s.now + k }) hp (h.read hp) hasked
        hanswering hover (Nat.add_lt_of_lt_sub' hk) m
    rwa [Nat.add_sub_cancel' hle] at hreach
  obtain ⟨heffects, hphase⟩ := Setup.meet_event s.hub s.run .deadline
  rw [hp, Move.waitElapsed.step_eq] at heffects hphase
  have hmove : ({ s with now := T.deadline } : Interplay).move? T .deadline =
      some (({ s with now := T.deadline } : Interplay).tell (.event s.run.id .deadline)) := by
    simp [Interplay.move?, hp, Phase.outcome?]
  rw [← hlive.id]
  refine h.toTracks.happen_of_silent hon hlive (.tail hlate (.move hmove)) rfl (fun hgoes => ?_)
    (by simp [heffects]) rfl ?_ h.keeps
  · have hend : (({ s with now := T.deadline } : Interplay).tell
        (.event s.run.id .deadline)).run.phase = _ := hphase
    rw [hend] at hgoes
    cases hgoes
  · simp [Interplay.tell, hasked, heffects]

/-- **Others do something elsewhere**, or something happens to a call that is over. -/
theorem ignored (h : Mirrors S T before w s) (hon : S.IsOn T) (hlive : Live S 0 w s.run)
    (hgoes : s.run.phase.outcome? = none) (input : Fleet.Input) (hfor : input.isFor S.id = false)
    (helse : ∀ op ∈ input.outsides, op.IsElsewhere T.channel) :
    LeadsTo S T before s (w.happen (.input input)) := by
  rw [← hlive.id] at hfor
  have hmeet : s.run.meet s.hub input =
      ([], (s.hub.run (input.outsides.map Outside.operation)).2, s.run) := by
    cases input with
    | outside ops => rfl
    | attach number =>
      have hne : number ≠ s.run.id := by simpa [Fleet.Input.isFor] using hfor
      exact if_neg fun he => hne he.1
    | event number e =>
      have hne : number ≠ s.run.id := by simpa [Fleet.Input.isFor] using hfor
      exact if_neg hne
  have hchannel : s.run.channel = T.channel := h.good.sane.counted.channel_eq
  refine h.toTracks.happen_of_silent hon hlive (Interplay.reaches_outsides (hchannel ▸ helse)) ?_
    (fun _ => h.now hgoes) ?_ rfl h.notified h.keeps
  · rw [hmeet]
  · rw [hmeet]
    exact List.not_mem_nil

/-! ## Time -/

variable {pending : List Item} {x : Item} {rest : List Item}

/-- When nothing that waits for a subscriber is due now, the publisher of the call has done its
work. -/
theorem over_of_later (h : Mirrors S T before w s) (hp : s.run.phase = .waiting)
    (hlater : ∀ r ∈ w.responders, ∀ due ∈ w.due? r, w.now < due) :
    (∀ p ∈ s.publisher, p.errand = .finished) ∧
      w.responders.filter (·.channel = T.channel) = [] := by
  have hcount := h.subscriberCount_ne_zero hp
  have hkeeps := h.keeps
  generalize s.publisher = publisher at hkeeps
  cases hkeeps with
  | idle hover hown => exact ⟨hover, hown⟩
  | looks _ hnow hown =>
    have hmem := (List.mem_filter.1 (hown.symm ▸ List.mem_cons_self :
      _ ∈ w.responders.filter (·.channel = T.channel))).1
    have hlate := hlater _ hmem S.start (World.due?_of_start hnow hcount)
    omega

/-- **Time goes on** up to what comes next. -/
theorem pass (h : Mirrors S T before w s) (hon : S.IsOn T) (hg : Going S 0 w s.run pending)
    (hagenda : w.agenda = x :: rest) {time : Nat} (hle : w.now ≤ time) (hin : time ≤ x.1)
    (hfirst : ∀ r ∈ w.responders, ∀ due ∈ w.due? r, time ≤ due) :
    Relation.ReflTransGen (Interplay.Next T) s { s with now := time * Config.milli } ∧
      Mirrors S T before { w with now := time } { s with now := time * Config.milli } := by
  have hidle (hlater : w.now < time) : s.run.phase = .waiting ∧
      (∀ p ∈ s.publisher, p.errand = .finished) ∧
        w.responders.filter (·.channel = T.channel) = [] := by
    have hp : s.run.phase = .waiting := by
      by_contra hne
      obtain ⟨hnow, htime⟩ := hon.now_eq_start hg hne hagenda
      omega
    exact ⟨hp, h.over_of_later hp fun r hr due hdue =>
      Nat.lt_of_lt_of_le hlater (hfirst r hr due hdue)⟩
  obtain ⟨hreach, htracks⟩ := h.toTracks.pass hon hle hg.stage.outcome?
    (fun hlater => ⟨(hidle hlater).1, (hidle hlater).2.1⟩)
    (Nat.le_trans hin (hg.time_le hagenda))
  refine ⟨hreach, htracks, ?_⟩
  rcases Nat.eq_or_lt_of_le hle with rfl | hlater
  · exact h.keeps
  · exact .idle (hidle hlater).2.1 (hidle hlater).2.2

/-- Less may be planned. -/
theorem with_agenda (h : Mirrors S T before w s) {agenda : List Item}
    (hsub : ∀ y ∈ agenda, y ∈ w.agenda) : Mirrors S T before { w with agenda } s :=
  ⟨{ h.toTracks with elsewhere := fun y hy => h.elsewhere y (hsub y hy) }, h.keeps⟩

/-- A responder to another channel may have its turn. -/
theorem with_responders (h : Mirrors S T before w s) {r : Responder} {others : List Responder}
    (hperm : (r :: others).Perm w.responders) (hr : r.channel ≠ T.channel) :
    Mirrors S T before { w with responders := others } s :=
  ⟨{ h.toTracks with }, h.keeps.of_others hperm hr⟩

/-- What happened to others does not matter. -/
theorem with_log (h : Mirrors S T before w s) (log : List Hub.Answer) :
    Mirrors S T before { w with log } s :=
  ⟨{ h.toTracks with }, h.keeps⟩

/-! ## Steps of a rehearsal -/

/-- What a responder does is done elsewhere if it is not the call's. -/
theorem isElsewhere_of_ops {r : Responder} (hr : r.channel ≠ T.channel) :
    ∀ op ∈ r.response.ops r.channel, op.IsElsewhere T.channel := by
  intro op hop
  rcases List.mem_append.1 hop with hop | hop
  · obtain ⟨payload, -, rfl⟩ := List.mem_map.1 hop
    exact hr
  · split at hop
    · obtain rfl := List.mem_singleton.1 hop
      exact hr
    · cases hop

/-- A responder whose turn it is has found a subscriber, or has given up. -/
theorem leadsTo_respond (due : Nat) (r : Responder) (others : List Responder)
    (hgone : World.Responder.hasGivenUp r due = true →
      LeadsTo S T before s { w with responders := others })
    (hfound : LeadsTo S T before s ({ w with now := due, responders := others }.happen
      (.input (.outside (r.response.ops r.channel))))) :
    LeadsTo S T before s (w.respond due r others) := by
  rcases w.respond_eq due r others with ⟨hgave, hsame⟩ | ⟨log, hsame⟩
  · exact hsame ▸ hgone hgave
  · obtain ⟨u, hreach, hu⟩ := hfound
    exact hsame ▸ ⟨u, hreach, hu.with_log log⟩

/-- The responder of the call finds at once that the call listens. -/
theorem responded_own (h : Mirrors S T before w s) (hon : S.IsOn T)
    (hlive : Live S 0 w s.run) (hp : s.run.phase = .waiting) {due : Nat} {r : Responder}
    {others : List Responder} (hdue : w.due? r = some due) (hperm : (r :: others).Perm w.responders)
    (hr : r.channel = T.channel) : LeadsTo S T before s (w.respond due r others) := by
  have hcount := h.subscriberCount_ne_zero hp
  have hown := hperm.filter (fun r => decide (r.channel = T.channel))
  rw [List.filter_cons_of_pos (by simpa using hr)] at hown
  generalize hpublisher : s.publisher = publisher
  have hkeeps := h.keeps
  rw [hpublisher] at hkeeps
  cases hkeeps with
  | idle hover hnone =>
    rw [hnone] at hown
    cases hown.eq_nil
  | @looks script hscript hnow hone =>
    rw [hone, List.perm_singleton] at hown
    obtain ⟨heq, hnone⟩ := List.cons.inj hown
    have hstart : r.start = S.start := by rw [heq]
    have hdue' := World.due?_of_start (hnow.trans hstart.symm) (hr.symm ▸ hcount)
    obtain rfl : due = S.start := by rw [← hstart, Option.some.inj (hdue.symm.trans hdue')]
    refine leadsTo_respond _ r others (fun hgone => ?_) ?_
    · -- the patience of the cluster has only begun
      rw [heq] at hgone
      have hlt : S.start + T.patience / Config.milli < S.start := of_decide_eq_true hgone
      exact absurd hlt (Nat.not_lt.2 (Nat.le_add_right ..))
    · have hlive' : Live S 0 { w with now := S.start, responders := others } s.run :=
        hlive.pass (Nat.le_of_eq hnow) (hnow ▸ hlive.sane.orderly) (fun _ hx => hx)
          fun other hother => hperm.subset (.tail _ hother)
      have htracks : Tracks S T before { w with now := S.start, responders := others } s :=
        { h.toTracks with now := fun hgoes => hnow ▸ h.now hgoes }
      have hops : r.response.ops r.channel = T.payloads.map (Outside.publish T.channel) := by
        rw [Terms.payloads, hscript, heq]
        exact List.append_nil _
      rw [hops]
      exact htracks.published hon hlive' hp rfl hpublisher hnone

/-- **A responder has its turn.** -/
theorem responded (h : Mirrors S T before w s) (hon : S.IsOn T) (hg : Going S 0 w s.run pending)
    (hagenda : w.agenda = x :: rest) {due : Nat} {r : Responder} {others : List Responder}
    (hlt : due < x.1) (hdue : w.due? r = some due) (hperm : (r :: others).Perm w.responders)
    (hmin : ∀ other ∈ w.responders, ∀ later ∈ w.due? other, due ≤ later) :
    LeadsTo S T before s (w.respond due r others) := by
  have hpast := World.now_le_due hdue
  by_cases hr : r.channel = T.channel
  · have hp : s.run.phase = .waiting := by
      by_contra hne
      obtain ⟨hnow, htime⟩ := hon.now_eq_start hg hne hagenda
      omega
    exact h.responded_own hon hg.live hp hdue hperm hr
  · refine leadsTo_respond due r others (fun _ => (h.with_responders hperm hr).leadsTo) ?_
    obtain ⟨hreach, hpassed⟩ := h.pass hon hg hagenda hpast (Nat.le_of_lt hlt) hmin
    have horderly := hg.live.sane.orderly
    rw [hagenda] at horderly
    have hlive : Live S 0 { w with now := due, responders := others } s.run :=
      hg.live.pass hpast (hagenda ▸ horderly.mono (Nat.le_of_lt hlt)) (fun _ hx => hx)
        fun other hother => hperm.subset (.tail _ hother)
    exact ((hpassed.with_responders hperm hr).ignored hon hlive hg.stage.outcome?
      (.outside (r.response.ops r.channel)) rfl (isElsewhere_of_ops hr)).of_reaches hreach

/-- **The first item of the agenda happens.** -/
theorem happened (h : Mirrors S T before w s) (hon : S.IsOn T) (hg : Going S 0 w s.run pending)
    (hagenda : w.agenda = x :: rest) (hfirst : ∀ r ∈ w.responders, ∀ due ∈ w.due? r, x.1 ≤ due) :
    LeadsTo S T before s ({ w with now := x.1, agenda := rest }.happen x.2) := by
  have hmem : x ∈ w.agenda := hagenda ▸ List.mem_cons_self
  have hlive := hg.live_tail hagenda
  obtain ⟨hreach, hpassed⟩ :=
    h.pass hon hg hagenda (hg.live.sane.orderly.le x hmem) (Nat.le_refl _) hfirst
  have hnext : Mirrors S T before { w with now := x.1, agenda := rest }
      { s with now := x.1 * Config.milli } :=
    hpassed.with_agenda fun y hy => hagenda ▸ .tail _ hy
  refine LeadsTo.of_reaches ?_ hreach
  obtain ⟨input, hx, -⟩ := hg.live.sane.inputs x hmem
  cases hfor : input.isFor S.id with
  | false =>
    rw [hx]
    exact hnext.ignored hon hlive hg.stage.outcome? input hfor (h.elsewhere x hmem input hx)
  | true =>
    rcases hon.own_first hg hagenda (by simp [Setup.owns, hx, hfor]) with
      ⟨early, hp, rfl⟩ | ⟨hp | hp, rfl⟩ | ⟨hp, rfl⟩
    · exact hnext.acknowledged hon hlive hp
    · exact hnext.attachedEarly hon hlive rfl hp
    · exact hnext.attachedLate hon hlive hp
    · exact hnext.elapsed hon hlive rfl hp

/-- **Each step of a rehearsal** is a number of things that can happen next. -/
theorem step (h : Mirrors S T before w s) (hon : S.IsOn T) (hg : Going S 0 w s.run pending) :
    ∃ w', w.step? = some w' ∧ LeadsTo S T before s w' := by
  obtain ⟨x, rest, hagenda⟩ := List.exists_cons_of_ne_nil (List.ne_nil_of_mem hg.deadlineItem_mem)
  rcases World.step?_first hagenda with
    ⟨hstep, hfirst⟩ | ⟨due, r, others, hstep, hlt, hdue, hperm, hmin⟩
  · exact ⟨_, hstep, h.happened hon hg hagenda hfirst⟩
  · exact ⟨_, hstep, h.responded hon hg hagenda hlt hdue hperm hmin⟩

/-- **All that a rehearsal does** until its call is over is a number of things that can happen
next. -/
theorem runFor (h : Mirrors S T before w s) (hon : S.IsOn T) {budget : Nat}
    (ho : Outlook S 0 budget w) (fuel : Nat) : LeadsTo S T before s (w.runFor fuel [S.id]) := by
  induction fuel generalizing budget w s with
  | zero =>
    rw [World.runFor, ite_self]
    exact h.leadsTo
  | succ fuel ih =>
    cases ho with
    | @ends run hended =>
      rw [World.runFor_of_areOver hended.areOver]
      exact h.leadsTo
    | @goes run pending hg =>
      obtain rfl : run = s.run := hg.live.lone.unique h.lone
      obtain ⟨w', hstep, u, hreach, hmirrors⟩ := h.step hon hg
      obtain ⟨w'', hstep', hnext⟩ := hg.step (w.isQuietFor_zero S).trigger
      obtain rfl := Option.some.inj (hstep'.symm.trans hstep)
      have hover : w.areOver [S.id] = false := by simp [World.areOver, hg.live.ends]
      simp only [World.runFor, hover, hstep, Bool.false_eq_true, if_false]
      exact (ih hmirrors hnext).of_reaches hreach

end Mirrors

end Rehearsal

end Custody
