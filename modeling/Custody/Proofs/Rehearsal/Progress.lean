import Custody.Proofs.Rehearsal.Steps
import Custody.Proofs.Ceremony.Run
/-!
# The progress of a call

A call that goes on has its deadline ahead of it and waits for one answer at most (`Going`). Each
step brings it closer to its end: there is less on the agenda than before, counted together with
what the call may still plan (`Setup.budget`). So it ends within as many steps as that
(`Outlook.runFor`).
-/

namespace Custody.Rehearsal

open Ceremony

/-! ## How much a call may plan -/

namespace Setup

variable {S : Setup}

/-- How many items and responders an effect may bring about. -/
def load (S : Setup) : Effect → Nat
  | .notify => 2 + (S.cluster.script S.request).length
  | .subscribe => 1
  | .release => 0

def loads (S : Setup) : List Effect → Nat
  | [] => 0
  | effect :: rest => S.load effect + S.loads rest

theorem loads_append (S : Setup) (first second : List Effect) :
    S.loads (first ++ second) = S.loads first + S.loads second := by
  induction first with
  | nil => exact (Nat.zero_add _).symm
  | cons effect rest ih => simp only [List.cons_append, loads, ih, Nat.add_assoc]

theorem length_answerItem_le (now : Nat) (delay : Option Nat) (input : Fleet.Input) :
    (answerItem now delay input).length ≤ 1 := by
  cases delay <;> simp [answerItem]

theorem length_planned_le (S : Setup) (now : Nat) (effect : Effect) :
    (S.planned now effect).length + (S.waiters now effect).length ≤ S.load effect := by
  cases effect with
  | notify =>
    have hanswer := length_answerItem_le now S.cluster.delay (S.cluster.reply S.id)
    have hframes := (bursts_spec (S.cluster.script S.request)).1
    have hwaiters : (S.waiters now .notify).length ≤ 1 := by
      unfold waiters
      cases S.cluster.response S.request <;> simp
    simp only [planned, load, List.length_append, Cluster.frames, List.length_map]
    omega
  | subscribe => exact length_answerItem_le ..
  | release => exact Nat.le_refl 0

theorem length_flatMap_planned_le (S : Setup) (now : Nat) (effects : List Effect) :
    (effects.flatMap (S.planned now)).length + (effects.flatMap (S.waiters now)).length ≤
      S.loads effects := by
  induction effects with
  | nil => exact Nat.le_refl 0
  | cons effect rest ih =>
    have hfirst := S.length_planned_le now effect
    simp only [loads, List.flatMap_cons, List.length_append]
    omega

theorem loads_requests (S : Setup) (effects : List Effect) :
    S.loads (requests effects) = S.loads effects := by
  induction effects with
  | nil => rfl
  | cons effect rest ih => cases effect <;> simp_all [loads, requests, load]

/-- A step asks for nothing beyond what its phase allowed. -/
theorem loads_step_le (S : Setup) (c : Ceremony) (phase : Phase) (e : Event) :
    S.loads (c.step phase e).2 + S.loads (c.step phase e).1.remaining ≤
      S.loads phase.remaining := by
  rcases c.step_eq phase e with hs | hm
  · rw [hs]
    exact Nat.le_of_eq (Nat.zero_add _)
  · obtain ⟨more, hmore⟩ := hm.requests_append_remaining
    rw [← S.loads_requests, ← hmore]
    simp only [loads_append]
    exact Nat.le_add_right ..

theorem loads_meet_le (S : Setup) (hub : Hub) (run : Run) (input : Fleet.Input) :
    S.loads (run.meet hub input).1 + S.loads (run.meet hub input).2.2.phase.remaining ≤
      S.loads run.phase.remaining := by
  have hadvance (hub : Hub) (run : Run) (e : Event) :
      S.loads (Fleet.advance hub run e).1 + S.loads (Fleet.advance hub run e).2.2.phase.remaining ≤
        S.loads run.phase.remaining := by
    obtain ⟨heffects, hphase⟩ := advance_eq_step hub run e
    rw [heffects, hphase]
    exact S.loads_step_le ..
  have hnothing : S.loads [] + S.loads run.phase.remaining ≤ S.loads run.phase.remaining :=
    Nat.le_of_eq (Nat.zero_add _)
  unfold Run.meet
  split
  · exact hnothing
  · split
    · split
      · exact hadvance ..
      · exact hadvance ..
    · exact hnothing
  · split
    · exact hadvance ..
    · exact hnothing

/-- How many things can happen before the call is over. -/
def budget (S : Setup) (w : World) (run : Run) : Nat :=
  w.agenda.length + w.responders.length + S.loads run.phase.remaining

/-- The deadline of the call, as it stands on the agenda. -/
def deadlineItem (S : Setup) : Item :=
  (S.deadline, .input (.event S.id .deadline))

end Setup

/-! ## Where a call is -/

/-- The call goes on as this run of a world. Of the agenda these items and the deadline are its
own. -/
structure Going (S : Setup) (loud : Nat) (w : World) (run : Run) (pending : List Item) : Prop where
  live : Live S loud w run
  stage : S.Stage run.phase pending
  own : (w.agenda.filter S.owns).Perm (pending ++ [S.deadlineItem])

/-- The call is over, as this run of a world. -/
structure Ended (S : Setup) (loud : Nat) (w : World) (run : Run) : Prop where
  sane : w.Sane
  next : w.next = S.id + 1
  lone : w.fleet.Lone run
  id : run.id = S.id
  ending : ∃ result elapsed, run.phase = .finished (.returned result) ∧
    S.Ending loud result elapsed ∧ w.ends.lookup S.id = some (S.start + elapsed)

/-- `Outlook S loud budget w`: the call is over, or it goes on and less than `budget` can happen
before its end. -/
inductive Outlook (S : Setup) (loud budget : Nat) (w : World) : Prop
  | goes {run : Run} {pending : List Item} (h : Going S loud w run pending)
    (hlt : S.budget w run < budget)
  | ends {run : Run} (h : Ended S loud w run)

variable {S : Setup} {loud : Nat} {w : World} {run : Run} {pending : List Item}
  {input : Fleet.Input}

/-- What happened to others does not matter. -/
theorem Outlook.with_log {budget : Nat} (h : Outlook S loud budget w) (log : List Hub.Answer) :
    Outlook S loud budget { w with log } := by
  cases h with
  | goes h hlt => exact .goes ⟨{ h.live with sane := { h.live.sane with } }, h.stage, h.own⟩ hlt
  | ends h => exact .ends { h with sane := { h.sane with } }

/-! ## After an input -/

theorem reached_of_ne (hp : (run.meet w.fleet.hub input).2.2.phase ≠ .waiting) :
    (reached w run input).2 = (run.meet w.fleet.hub input).2.2 := by
  rw [reached, Run.settleRun_of_phase_ne hp]

/-- The call is over when its run is. -/
theorem Live.over (h : Live S loud w run) {result : Except Error CeremonyResult}
    (hp : (reached w run input).2.phase = .finished (.returned result))
    (hending : S.Ending loud result (w.now - S.start)) :
    Ended S loud (w.happen (.input input)) (reached w run input).2 := by
  have ht := h.turned input
  have hsound := sound_reached h.sane.sound run input
  have hnext : (w.happen (.input input)).next = w.next := by rw [ht.eq]
  refine ⟨ht.sane h.sane h.next hsound, hnext.trans h.next, ht.lone,
    (reached_id_ceremony w run input).1.trans h.id, result, w.now - S.start, hp, hending, ?_⟩
  rw [ht.lookup, hp, Nat.add_sub_cancel' h.start_le]
  rfl

/-- **A call reads** what there is, and goes on or ends by that. -/
theorem Live.read (h : Live S loud w run) (hquiet : S.IsQuiet loud)
    (hnoise : S.Hushed loud w.now → ∀ op ∈ input.outsides, op.IsNoise S.ceremony.channel)
    (hattach : input = .attach S.id → S.IsHearing w.now)
    (hsent : .notify ∈ (run.meet w.fleet.hub input).1 → ∃ s ∈ S.sentAfter?, w.now = S.start + s)
    (hle : w.now ≤ S.deadline) (hstage : S.Stage (run.meet w.fleet.hub input).2.2.phase pending) :
    (Live S loud (w.happen (.input input)) (reached w run input).2 ∧
      (reached w run input).2.phase = (run.meet w.fleet.hub input).2.2.phase) ∨
      Ended S loud (w.happen (.input input)) (reached w run input).2 := by
  have hgoes (hphase : (reached w run input).2.phase = (run.meet w.fleet.hub input).2.2.phase) :=
    h.happen hquiet hnoise hattach hsent (hphase ▸ hstage.outcome?)
  by_cases hp : (run.meet w.fleet.hub input).2.2.phase = .waiting
  · rcases Run.settleRun_phase (run.meet w.fleet.hub input).2.1 hp with hwaits | hended
    · have hphase := hwaits.trans hp.symm
      exact .inl ⟨hgoes hphase, hphase⟩
    · -- who hears only noise does not end by reading
      have hloud : loud ≤ w.now := by
        by_contra hlt
        have hearly : w.now < loud := Nat.lt_of_not_le hlt
        have hcalm := (h.calm hearly).meet h.sane.sound fun hhears =>
          h.ceremony ▸ hnoise ⟨h.hearing hhears, hearly⟩
        have hsame := (hcalm.settle (Run.sound_meet h.sane.sound run input)).1
        rw [hsame, hp] at hended
        rcases hended with ⟨result, hr⟩ | hr <;> cases hr
      obtain ⟨hack, hopen⟩ := hstage.of_waiting hp
      have hread {result : Except Error CeremonyResult}
          (hresult : (∃ r, result = .ok r) ∨
            result = .error (.channelClosed S.ceremony.channel.name)) :
          S.Ending loud result (w.now - S.start) := by
        have := h.start_le
        simp only [Setup.deadline] at hle
        exact .read hack hopen (by omega) (by omega) hresult
      have hceremony := (run.meet_id_ceremony w.fleet.hub input).2.trans h.ceremony
      rcases hended with ⟨result, hr⟩ | hr
      · exact .inr (h.over hr (hread (.inl ⟨result, rfl⟩)))
      · rw [hceremony] at hr
        exact .inr (h.over hr (hread (.inr rfl)))
  · have hphase := congrArg Run.phase (reached_of_ne hp)
    exact .inl ⟨hgoes hphase, hphase⟩

/-- **An input that leaves a call in some stage** uses up a part of its budget. -/
theorem Live.outlook (h : Live S loud w run) (hquiet : S.IsQuiet loud)
    (hnoise : S.Hushed loud w.now → ∀ op ∈ input.outsides, op.IsNoise S.ceremony.channel)
    (hattach : input = .attach S.id → S.IsHearing w.now)
    (hsent : .notify ∈ (run.meet w.fleet.hub input).1 → ∃ s ∈ S.sentAfter?, w.now = S.start + s)
    (hle : w.now ≤ S.deadline) (hstage : S.Stage (run.meet w.fleet.hub input).2.2.phase pending)
    (hown : ((run.meet w.fleet.hub input).1.flatMap (S.planned w.now) ++ w.agenda).filter S.owns
      |>.Perm (pending ++ [S.deadlineItem])) :
    Outlook S loud (S.budget w run + 1) (w.happen (.input input)) := by
  rcases h.read hquiet hnoise hattach hsent hle hstage with ⟨hlive, hphase⟩ | hended
  · have ht := h.turned input
    refine .goes ⟨hlive, hphase ▸ hstage, (ht.adds.perm S.owns fun _ _ => rfl).trans hown⟩ ?_
    have hagenda := ht.adds.length_le
    have hresponders : (w.happen (.input input)).responders.length = w.responders.length +
        ((run.meet w.fleet.hub input).1.flatMap (S.waiters w.now)).length := by
      rw [ht.eq, List.length_append]
    have hplanned := S.length_flatMap_planned_le w.now (run.meet w.fleet.hub input).1
    have hloads := S.loads_meet_le w.fleet.hub run input
    simp only [Setup.budget, hphase, hresponders]
    omega
  · exact .ends hended

/-! ## One step -/

/-- Time goes on, and the rest of the world stays, or gets less. -/
theorem Live.pass (h : Live S loud w run) {now : Nat} {agenda : List Item}
    {responders : List Responder} (hnow : w.now ≤ now) (hagenda : Orderly now agenda)
    (hsub : ∀ x ∈ agenda, x ∈ w.agenda) (hsub' : ∀ r ∈ responders, r ∈ w.responders) :
    Live S loud { w with now, agenda, responders } run where
  sane := { h.sane with
    orderly := hagenda
    inputs := fun x hx => h.sane.inputs x (hsub x hx) }
  next := h.next
  cluster := h.cluster
  broker := h.broker
  start_le := Nat.le_trans h.start_le hnow
  lone := h.lone
  id := h.id
  ceremony := h.ceremony
  task := h.task
  ends := h.ends
  calm hlt := h.calm (Nat.lt_of_le_of_lt hnow hlt)
  hearing hhears a ha d hd := Nat.le_trans (h.hearing hhears a ha d hd) hnow
  noise x hx := h.noise x (hsub x hx)
  ignored hlt r hr := h.ignored (Nat.lt_of_le_of_lt hnow hlt) r (hsub' r hr)

/-- What does not concern the call does no more to it than to make it read. -/
theorem Live.outlook_of_not_isFor (h : Live S loud w run) (hquiet : S.IsQuiet loud)
    (hnoise : S.Hushed loud w.now → ∀ op ∈ input.outsides, op.IsNoise S.ceremony.channel)
    (hle : w.now ≤ S.deadline) (hfor : input.isFor S.id = false)
    (hstage : S.Stage run.phase pending)
    (hown : (w.agenda.filter S.owns).Perm (pending ++ [S.deadlineItem])) :
    Outlook S loud (S.budget w run + 1) (w.happen (.input input)) := by
  obtain ⟨heffects, hrun⟩ := run.meet_of_not_isFor w.fleet.hub (h.id ▸ hfor)
  have hstage' : S.Stage (run.meet w.fleet.hub input).2.2.phase pending := by rwa [hrun]
  refine h.outlook hquiet hnoise (fun hattach => ?_) (by simp [heffects]) hle hstage'
    (by rwa [heffects])
  rw [hattach] at hfor
  simp [Fleet.Input.isFor] at hfor

namespace Going

theorem deadlineItem_mem (h : Going S loud w run pending) : S.deadlineItem ∈ w.agenda :=
  (List.mem_filter.1 (h.own.symm.subset (by simp))).1

variable {x : Item} {rest : List Item}

/-- The deadline has not passed. -/
theorem time_le (h : Going S loud w run pending) (hagenda : w.agenda = x :: rest) :
    x.1 ≤ S.deadline := by
  have hmem := h.deadlineItem_mem
  have horderly := h.live.sane.orderly
  rw [hagenda] at hmem horderly
  rcases List.mem_cons.1 hmem with hx | hmem
  · exact Nat.le_of_eq (congrArg Prod.fst hx).symm
  · exact horderly.tail.le _ hmem

theorem live_tail (h : Going S loud w run pending) (hagenda : w.agenda = x :: rest) :
    Live S loud { w with now := x.1, agenda := rest } run := by
  have horderly := h.live.sane.orderly
  rw [hagenda] at horderly
  exact h.live.pass (horderly.le _ List.mem_cons_self) horderly.tail
    (fun x hx => hagenda ▸ .tail _ hx) (fun _ hr => hr)

theorem budget_tail (_ : Going S loud w run pending) (hagenda : w.agenda = x :: rest) :
    S.budget { w with now := x.1, agenda := rest } run + 1 = S.budget w run := by
  simp only [Setup.budget, hagenda, List.length_cons]
  omega

/-- **The deadline of a call** ends it. -/
theorem ended_of_deadline (h : Going S loud w run pending)
    (hagenda : w.agenda = S.deadlineItem :: rest) :
    ∃ run', Ended S loud
      ({ w with now := S.deadline, agenda := rest }.happen (.input (.event S.id .deadline)))
        run' := by
  have horderly := h.live.sane.orderly
  rw [hagenda] at horderly
  have hlive := h.live_tail hagenda
  have hlate : ∀ x ∈ pending, S.deadline < x.1 := by
    intro x hx
    obtain ⟨hpending, hd⟩ := h.stage.eq_of_mem hx
    have hmem := (List.mem_filter.1 (h.own.symm.subset (List.mem_append_left _ hx))).1
    rw [hagenda] at hmem
    rcases List.mem_cons.1 hmem with rfl | hmem
    · cases hd
    · rcases horderly.head x hmem with hlt | ⟨-, himp⟩
      · exact hlt
      · exact absurd (himp rfl) (by simp [hd])
  obtain ⟨result, hphase, hending⟩ :=
    h.stage.elapsed h.live.id h.live.ceremony hlate w.fleet.hub loud
  have hover : (reached { w with now := S.deadline, agenda := rest } run
      (.event S.id .deadline)).2.phase = .finished (.returned result) := by
    rw [reached_of_ne (by rw [hphase]; nofun), hphase]
  exact ⟨_, hlive.over hover ((Nat.add_sub_cancel_left S.start S.timeout).symm ▸ hending)⟩

/-- **The answer that a call waits for** leads on, or to an end. -/
theorem outlook_of_answer (h : Going S loud w run pending) (hquiet : S.IsQuiet loud)
    (hagenda : w.agenda = x :: rest) (hx : x.2 = .input input) (hmem : x ∈ pending) :
    Outlook S loud (S.budget w run) ({ w with now := x.1, agenda := rest }.happen x.2) := by
  have hlive := h.live_tail hagenda
  have hbudget := h.budget_tail hagenda
  obtain ⟨time, o⟩ := x
  obtain rfl : o = .input input := hx
  obtain ⟨hpending, -⟩ := h.stage.eq_of_mem hmem
  obtain ⟨houtsides, hattach, hcourse⟩ :=
    h.stage.answered h.live.id h.live.ceremony hmem (h.time_le hagenda) w.fleet.hub loud
  cases hcourse with
  | ends hp hending =>
    refine .ends (hlive.over ?_ hending)
    rw [reached_of_ne (by rw [hp]; nofun), hp]
  | @goes pending' hstage hplanned hsent =>
    have hrest : (rest.filter S.owns).Perm [S.deadlineItem] := by
      have howns : S.owns (time, .input input) = true :=
        (List.mem_filter.1 (h.own.symm.subset (List.mem_append_left _ hmem))).2
      have hown := h.own
      rw [hagenda, hpending, List.filter_cons_of_pos howns] at hown
      exact hown.cons_inv
    have hown : (((run.meet w.fleet.hub input).1.flatMap (S.planned time) ++ rest).filter
        S.owns).Perm (pending' ++ [S.deadlineItem]) := by
      rw [List.filter_append, hplanned]
      exact hrest.append_left _
    exact hbudget ▸ hlive.outlook hquiet (by simp [houtsides]) hattach hsent (h.time_le hagenda)
      hstage hown

/-- What does not concern the call is the first on the agenda. -/
theorem outlook_of_other (h : Going S loud w run pending) (hquiet : S.IsQuiet loud)
    (hagenda : w.agenda = x :: rest) (hx : x.2 = .input input) (hfor : input.isFor S.id = false) :
    Outlook S loud (S.budget w run) ({ w with now := x.1, agenda := rest }.happen x.2) := by
  have hmem : x ∈ w.agenda := hagenda ▸ List.mem_cons_self
  have hown := h.own
  rw [hagenda, List.filter_cons_of_neg (by simp [Setup.owns, hx, hfor])] at hown
  have hnoise (hhushed : S.Hushed loud x.1) := h.live.noise x hmem hhushed input hx
  rw [← h.budget_tail hagenda, hx]
  exact (h.live_tail hagenda).outlook_of_not_isFor hquiet hnoise (h.time_le hagenda) hfor h.stage
    hown

/-- A responder comes before the agenda. -/
theorem outlook_of_responder (h : Going S loud w run pending) (hquiet : S.IsQuiet loud)
    (hagenda : w.agenda = x :: rest) {due : Nat} {r : Responder} {others : List Responder}
    (hpicks : w.Picks w.responders due r others) (hlt : due < x.1) :
    Outlook S loud (S.budget w run) (w.respond due r others) := by
  have hdue := World.now_le_due hpicks.due_eq
  have horderly := h.live.sane.orderly
  rw [hagenda] at horderly
  have hlive {now : Nat} (hnow : w.now ≤ now) (hle : now ≤ due) :
      Live S loud { w with now, responders := others } run :=
    h.live.pass hnow (hagenda ▸ horderly.mono (by omega)) (fun _ hx => hx) hpicks.subset
  have hbudget (now : Nat) : S.budget { w with now, responders := others } run + 1 =
      S.budget w run := by
    have := hpicks.length_eq
    simp only [Setup.budget]
    omega
  rcases w.respond_eq due r others with ⟨-, hgone⟩ | ⟨log, hsame⟩
  · rw [hgone]
    exact .goes ⟨hlive (Nat.le_refl _) hdue, h.stage, h.own⟩
      (Nat.lt_of_succ_le (Nat.le_of_eq (hbudget w.now)))
  · rw [hsame, ← hbudget due]
    have hle := h.time_le hagenda
    have hnoise (hhushed : S.Hushed loud due) :
        ∀ op ∈ (Fleet.Input.outside (r.response.ops r.channel)).outsides,
          op.IsNoise S.ceremony.channel :=
      h.live.ignored (Nat.lt_of_le_of_lt hdue hhushed.2) r hpicks.mem
    exact Outlook.with_log ((hlive hdue (Nat.le_refl _)).outlook_of_not_isFor hquiet hnoise
      (Nat.le_of_lt (Nat.lt_of_lt_of_le hlt hle)) rfl h.stage h.own) log

/-- **A call that goes on makes a step**, and comes closer to its end. -/
theorem step (h : Going S loud w run pending) (hquiet : S.IsQuiet loud) :
    ∃ w', w.step? = some w' ∧ Outlook S loud (S.budget w run) w' := by
  obtain ⟨x, rest, hagenda⟩ := List.exists_cons_of_ne_nil (List.ne_nil_of_mem h.deadlineItem_mem)
  rcases World.step?_of_cons hagenda with hstep | ⟨due, r, others, hpicks, hlt, hstep⟩
  · refine ⟨_, hstep, ?_⟩
    have hmem : x ∈ w.agenda := hagenda ▸ List.mem_cons_self
    obtain ⟨input, hx, -⟩ := h.live.sane.inputs x hmem
    cases hfor : input.isFor S.id with
    | false => exact h.outlook_of_other hquiet hagenda hx hfor
    | true =>
      have hown : x ∈ w.agenda.filter S.owns :=
        List.mem_filter.2 ⟨hmem, by simp [Setup.owns, hx, hfor]⟩
      rcases List.mem_append.1 (h.own.subset hown) with hpending | hdeadline
      · exact h.outlook_of_answer hquiet hagenda hx hpending
      · obtain rfl := List.mem_singleton.1 hdeadline
        obtain ⟨run', hended⟩ := h.ended_of_deadline hagenda
        exact .ends hended
  · exact ⟨_, hstep, h.outlook_of_responder hquiet hagenda hpicks hlt⟩

end Going

/-! ## Runs -/

theorem World.runFor_of_areOver {ids : List Nat} (h : w.areOver ids = true) (fuel : Nat) :
    w.runFor fuel ids = w := by
  cases fuel <;> simp [runFor, h]

theorem Ended.areOver (h : Ended S loud w run) : w.areOver [S.id] = true := by
  obtain ⟨result, elapsed, -, -, hlookup⟩ := h.ending
  simp [World.areOver, hlookup]

/-- **A call comes to its end** if there is enough fuel for what can happen before. -/
theorem Outlook.runFor {budget : Nat} (h : Outlook S loud budget w) (hquiet : S.IsQuiet loud)
    {fuel : Nat} (hfuel : budget ≤ fuel) : ∃ run, Ended S loud (w.runFor fuel [S.id]) run := by
  induction fuel generalizing budget w with
  | zero =>
    cases h with
    | goes h hlt => omega
    | @ends run h => exact ⟨run, by rwa [World.runFor_of_areOver h.areOver]⟩
  | succ fuel ih =>
    cases h with
    | goes h hlt =>
      obtain ⟨w', hstep, hnext⟩ := h.step hquiet
      have hover : w.areOver [S.id] = false := by simp [World.areOver, h.live.ends]
      simp only [World.runFor, hover, hstep, Bool.false_eq_true, if_false]
      exact ih hnext (by omega)
    | @ends run h => exact ⟨run, by rwa [World.runFor_of_areOver h.areOver]⟩

end Custody.Rehearsal
