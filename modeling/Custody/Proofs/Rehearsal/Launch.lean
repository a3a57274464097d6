import Custody.Proofs.Rehearsal.Progress
/-!
# The launch of a call

A world in which nothing goes on is ready for a call (`World.Ready`). The call is put on the agenda
for the present moment, after what is there for it (`Starting`). When it is launched its deadline
and what it asks for first are planned, and then it goes on (`Starting.outlook`); so it comes to its
end (`Starting.runFor`).
-/

namespace Custody.Rehearsal

open Ceremony

/-- The task of a call. -/
def Setup.task (S : Setup) : Task :=
  World.taskOf S.config S.id S.call S.request

namespace World

/-- Nothing goes on in a world. -/
structure Ready (w : World) : Prop where
  sane : w.Sane
  idle : w.fleet.Idle w.next

variable {w : World} {number : Nat}

/-- **Where nothing goes on, an input plans nothing.** -/
theorem happen_of_idle (h : w.fleet.Idle number) (input : Fleet.Input) :
    ∃ fleet log ends, w.happen (.input input) = { w with fleet, log, ends } ∧
      fleet.Idle number ∧ fleet.hub = (w.fleet.hub.run (input.outsides.map Outside.operation)).2 ∧
      ∀ e ∈ ends, e ∈ w.ends ∨ e.1 < number := by
  obtain ⟨heffects, hidle, hhub⟩ := h.step input
  let stepped : World := { w with
    fleet := (w.fleet.step input).2, log := w.log ++ (w.fleet.step input).1.answers }
  have hhappen : w.happen (.input input) =
      ((w.fleet.step input).1.effects.foldl serve stepped).note := rfl
  rw [heffects, List.foldl_nil] at hhappen
  refine ⟨_, _, stepped.note.ends, hhappen, hidle, hhub, fun e he => ?_⟩
  rcases List.mem_append.1 he with he | he
  · exact .inl he
  · obtain ⟨run, hrun, rfl⟩ := List.mem_map.1 he
    exact .inr (hidle run (List.mem_filter.1 hrun).1).1

/-- A launch is put somewhere into an agenda, and changes nothing else there. -/
theorem exists_insert_launch (time : Nat) (task : Task) (agenda : List Item) :
    ∃ early late, agenda = early ++ late ∧
      insert time (.launch task) agenda = early ++ (time, .launch task) :: late := by
  induction agenda with
  | nil => exact ⟨[], [], rfl, rfl⟩
  | cons x rest ih =>
    obtain ⟨t, first⟩ := x
    by_cases hb : comesBefore time (.launch task) t first = true
    · exact ⟨[], (t, first) :: rest, rfl, by rw [insert, if_pos hb]; rfl⟩
    · obtain ⟨early, late, rfl, hinsert⟩ := ih
      have hjoin : join? first (.launch task) = none := by
        cases first with
        | launch => rfl
        | input input => cases input <;> rfl
      refine ⟨(t, first) :: early, late, rfl, ?_⟩
      rw [insert, if_neg hb, hjoin, ite_self, hinsert]
      rfl

theorem find?_task {S : Setup} {tasks : List Task} (h : ∀ task ∈ tasks, task.id < S.id) :
    ((tasks ++ [S.task]).find? (·.id == S.id)).bind Task.request = some S.request := by
  have hfind : tasks.find? (·.id == S.id) = none := by
    simpa using fun task htask => Nat.ne_of_lt (h task htask)
  simp [hfind, Setup.task, taskOf]

/-- The world in which the call has been launched, and nothing has been done yet of what it asks
for. -/
def launched (w : World) (S : Setup) : World :=
  { w with
    fleet := (w.fleet.launch S.id S.ceremony).2
    tasks := w.tasks ++ [S.task]
    agenda := insert (w.now + S.timeout) (.input (.event S.id .deadline)) w.agenda }

/-- **What a launch plans.** -/
theorem plans_launch {S : Setup} (hcluster : w.cluster = S.cluster) (hbroker : w.broker = S.broker)
    (htasks : ∀ task ∈ w.tasks, task.id < S.id) :
    (w.launched S).Plans (S.ceremony.start.2.flatMap (S.planned w.now))
      (S.ceremony.start.2.flatMap (S.waiters w.now)) (w.happen (.launch S.task)) := by
  have h := plans_serve (w := w.launched S) hcluster hbroker (find?_task htasks)
    S.ceremony.start.2
  rw [List.foldl_map] at h
  exact h

end World

/-! ## A call that is about to start -/

namespace Setup

/-- **The first stage of a call.** -/
theorem exists_stage_start (S : Setup) :
    ∃ pending, S.Stage S.ceremony.start.1 pending ∧
      (S.ceremony.start.2.flatMap (S.planned S.start)).filter S.owns = pending ∧
      (.notify ∈ S.ceremony.start.2 → ∃ s ∈ S.sentAfter?, S.start = S.start + s) ∧
      S.loads S.ceremony.start.2 + S.loads S.ceremony.start.1.remaining ≤
        3 + (S.cluster.script S.request).length := by
  cases hfirst : S.config.subscribeFirst with
  | true =>
    have hstart : S.ceremony.start = (.subscribing, [.subscribe]) :=
      Call.start_of_subscribeFirst hfirst
    have hstage := Stage.asking (S := S) (a := 0) (by simp [askedAfter?, hfirst]) (Nat.zero_le _)
    rw [hfirst, if_pos rfl] at hstage
    rw [hstart]
    refine ⟨_, hstage, ?_, by simp, ?_⟩
    · simpa using S.filter_planned_subscribe S.start
    · simp only [loads, load, Phase.remaining]
      omega
  | false =>
    have hstart : S.ceremony.start = (.triggering false, [.notify]) :=
      Call.start_of_triggerFirst hfirst
    have hsent : 0 ∈ S.sentAfter? := by simp [sentAfter?, hfirst]
    have hstage := Stage.triggering hsent (Nat.zero_le _)
    rw [hfirst] at hstage
    rw [hstart]
    refine ⟨_, hstage, ?_, fun _ => ⟨0, hsent, rfl⟩, ?_⟩
    · simpa using S.filter_planned_notify S.start
    · simp only [loads, load, Phase.remaining]
      omega

end Setup

/-- The call is about to start: what comes early happens before it, at the same moment. -/
structure Starting (S : Setup) (loud : Nat) (w : World) (early late : List Item) : Prop where
  ready : ({ w with agenda := early ++ late, next := S.id } : World).Ready
  agenda : w.agenda = early ++ (S.start, .launch S.task) :: late
  orderly : Orderly S.start w.agenda
  now : w.now = S.start
  next : w.next = S.id + 1
  cluster : w.cluster = S.cluster
  broker : w.broker = S.broker
  noise : ∀ x ∈ early ++ late, S.Hushed loud x.1 → S.IsNoise x
  ignored : S.start < loud → ∀ r ∈ w.responders, ∀ op ∈ r.response.ops r.channel,
    op.IsNoise S.ceremony.channel

namespace Starting

variable {S : Setup} {loud : Nat} {w : World} {early late : List Item}

/-- Nobody publishes before the call starts. -/
theorem step?_eq (h : Starting S loud w early late) {x : Item} {rest : List Item}
    (hagenda : w.agenda = x :: rest) (hx : x.1 = S.start) :
    w.step? = some ({ w with now := S.start, agenda := rest }.happen x.2) := by
  rcases World.step?_of_cons hagenda with hstep | ⟨due, r, others, hpicks, hlt, -⟩
  · rw [hstep, hx]
  · have hdue := World.now_le_due hpicks.due_eq
    rw [h.now] at hdue
    omega

theorem lookup_eq_none (h : Starting S loud w early late) : w.ends.lookup S.id = none := by
  rw [List.lookup_eq_none_iff]
  intro e he
  simpa using Nat.ne_of_gt (h.ready.sane.ends e he)

theorem areOver_eq (h : Starting S loud w early late) : w.areOver [S.id] = false := by
  simp [World.areOver, h.lookup_eq_none]

/-- What comes early happens, and does no more than what others do. -/
theorem happen_early {x : Item} (h : Starting S loud w (x :: early) late) :
    ∃ input w', x.2 = .input input ∧ w.step? = some w' ∧ Starting S loud w' early late ∧
      w'.responders = w.responders ∧ w'.requests = w.requests ∧
      w'.fleet.hub = (w.fleet.hub.run (input.outsides.map Outside.operation)).2 := by
  obtain ⟨⟨horderly, hinputs, htasks, hends, hsound⟩, hidle⟩ := h.ready
  have hx : x.1 = S.start := by
    have hall := h.orderly
    rw [h.agenda] at hall
    exact Nat.le_antisymm (hall.tail.le (S.start, .launch S.task) (by simp))
      (hall.le _ List.mem_cons_self)
  obtain ⟨input, hinput, -⟩ := hinputs x List.mem_cons_self
  obtain ⟨fleet, log, ends, hhappen, hidle', hhub, hends'⟩ := World.happen_of_idle
    (w := { w with now := S.start, agenda := early ++ (S.start, .launch S.task) :: late })
    hidle input
  have horderly' := h.orderly
  have hstep := h.step?_eq h.agenda hx
  rw [hinput] at hstep
  rw [h.agenda] at horderly'
  refine ⟨input, _, hinput, hstep.trans (congrArg some hhappen), ?_, rfl, rfl, hhub⟩
  exact {
    ready := ⟨{
      orderly := hx ▸ horderly.tail
      inputs := fun y hy => hinputs y (.tail _ hy)
      tasks := htasks
      ends := fun e he => (hends' e he).elim (hends e) id
      sound := hhub ▸ Hub.sound_run hsound _ }, hidle'⟩
    agenda := rfl
    orderly := hx ▸ horderly'.tail
    now := rfl
    next := h.next
    cluster := h.cluster
    broker := h.broker
    noise := fun y hy => h.noise y (.tail _ hy)
    ignored := h.ignored }

/-- The world at the moment of the launch. -/
abbrev present (S : Setup) (w : World) (late : List Item) : World :=
  { w with now := S.start, agenda := late }

theorem adds_deadline (S : Setup) (w : World) (late : List Item) :
    Adds S.start [S.deadlineItem] late ((present S w late).launched S).agenda :=
  adds_insert (Nat.le_add_right ..)

/-- With the deadline the agenda still concerns nobody who is yet to come. -/
theorem isForOlder_launched (h : Starting S loud w [] late) :
    ∀ x ∈ ((present S w late).launched S).agenda, IsForOlder (S.id + 1) x := by
  refine (adds_deadline S w late).forall_mem _ (fun _ _ _ _ _ => isForOlder_outside ..)
    (List.forall_mem_cons.2 ⟨⟨_, rfl, fun n hn => ?_⟩, fun x hx => ?_⟩)
  · simpa [Fleet.Input.isFor] using Nat.ne_of_lt hn
  · exact (h.ready.sane.inputs x hx).mono (Nat.le_succ _)

/-- **The launch**: from now on the call goes on. -/
theorem live (h : Starting S loud w [] late) (hquiet : S.IsQuiet loud) {w' : World}
    (hplans : ((present S w late).launched S).Plans
      (S.ceremony.start.2.flatMap (S.planned S.start))
      (S.ceremony.start.2.flatMap (S.waiters S.start)) w')
    (hsent : .notify ∈ S.ceremony.start.2 → ∃ s ∈ S.sentAfter?, S.start = S.start + s) :
    Live S loud w' ⟨S.id, S.ceremony, S.ceremony.start.1, none⟩ := by
  obtain ⟨⟨horderly, -, htasks, hends, hsound⟩, hidle⟩ := h.ready
  obtain ⟨hsame, hadds⟩ := hplans
  have hdeadline := adds_deadline S w late
  have hnow : w'.now = S.start := by rw [hsame]; rfl
  have hnext : w'.next = S.id + 1 := by rw [hsame]; exact h.next
  have hfleet : w'.fleet = (w.fleet.launch S.id S.ceremony).2 := by rw [hsame]; rfl
  have htasks' : w'.tasks = w.tasks ++ [S.task] := by rw [hsame]; rfl
  have hends' : w'.ends = w.ends := by rw [hsame]; rfl
  have hresponders : w'.responders = w.responders ++
    S.ceremony.start.2.flatMap (S.waiters S.start) := by rw [hsame]; rfl
  exact {
    sane := {
      orderly := hnow ▸ hadds.orderly (hdeadline.orderly (h.now ▸ horderly))
      inputs := hnext ▸ Setup.isForOlder_of_adds hadds h.isForOlder_launched
      tasks := by
        rw [htasks', hnext]
        exact List.forall_mem_append.2 ⟨fun task htask => Nat.lt_succ_of_lt (htasks task htask),
          List.forall_mem_singleton.2 (Nat.lt_succ_self S.id)⟩
      ends := fun e he => hnext ▸ Nat.lt_succ_of_lt (hends e (hends' ▸ he))
      sound := hfleet ▸ hsound }
    next := hnext
    cluster := by rw [hsame]; exact h.cluster
    broker := by rw [hsame]; exact h.broker
    start_le := Nat.le_of_eq hnow.symm
    lone := hfleet ▸ hidle.lone_launch S.ceremony
    id := rfl
    ceremony := rfl
    task := htasks' ▸ World.find?_task htasks
    ends := hends' ▸ h.lookup_eq_none
    calm := fun _ => .deaf rfl
    hearing := fun hhears => absurd hhears Bool.false_ne_true
    noise := hquiet.forall_isNoise hadds hsent (Setup.forall_isNoise_of_adds hdeadline
      (List.forall_mem_cons.2 ⟨fun _ => Setup.isNoise_of_outsides rfl (List.forall_mem_nil _),
        h.noise⟩))
    ignored := fun hlt => hresponders ▸
      hquiet.forall_ignored (hnow ▸ hlt) _ (h.ignored (hnow ▸ hlt)) }

/-- **A call that is launched** will have its end. -/
theorem outlook (h : Starting S loud w [] late) (hquiet : S.IsQuiet loud) :
    Outlook S loud
      (late.length + w.responders.length + 5 + (S.cluster.script S.request).length)
      ((present S w late).happen (.launch S.task)) := by
  obtain ⟨pending, hstage, hown, hsent, hloads⟩ := S.exists_stage_start
  have hplans := World.plans_launch (w := present S w late) h.cluster h.broker h.ready.sane.tasks
  generalize (present S w late).happen (.launch S.task) = w' at hplans ⊢
  have hdeadline := adds_deadline S w late
  refine .goes ⟨h.live hquiet hplans hsent, hstage, ?_⟩ ?_
  · have hlate : late.filter S.owns = [] := by
      rw [List.filter_eq_nil_iff]
      intro x hx
      obtain ⟨input, hinput, hfor⟩ := h.ready.sane.inputs x hx
      simp [Setup.owns, hinput, hfor S.id (Nat.le_refl _)]
    have howns : S.owns S.deadlineItem = true := by
      simp [Setup.owns, Setup.deadlineItem, Fleet.Input.isFor]
    have hperm := hdeadline.perm S.owns fun _ _ => rfl
    rw [List.filter_append, hlate, List.append_nil, List.filter_cons_of_pos howns,
      List.filter_nil] at hperm
    refine (hplans.adds.perm S.owns fun _ _ => rfl).trans ?_
    rw [List.filter_append, hown]
    exact hperm.append_left _
  · have hagenda := (hdeadline.trans hplans.adds).length_le
    have hplanned := S.length_flatMap_planned_le S.start S.ceremony.start.2
    have hresponders : w'.responders = w.responders ++
      S.ceremony.start.2.flatMap (S.waiters S.start) := by rw [hplans.eq]; rfl
    simp only [Setup.budget, hresponders, List.length_append, List.length_singleton] at hagenda ⊢
    omega

/-- **A call that is about to start comes to its end.** -/
theorem runFor (h : Starting S loud w early late) (hquiet : S.IsQuiet loud) {fuel : Nat}
    (hfuel : w.agenda.length + w.responders.length + 5 + (S.cluster.script S.request).length ≤
      fuel) : ∃ run, Ended S loud (w.runFor fuel [S.id]) run := by
  induction early generalizing w fuel with
  | nil =>
    obtain ⟨fuel, rfl⟩ := Nat.exists_eq_succ_of_ne_zero (n := fuel) (by omega)
    have hstep := h.step?_eq h.agenda rfl
    simp only [World.runFor, h.areOver_eq, hstep, Bool.false_eq_true, if_false]
    rw [h.agenda, List.nil_append, List.length_cons] at hfuel
    exact (h.outlook hquiet).runFor hquiet (by omega)
  | cons x early ih =>
    obtain ⟨fuel, rfl⟩ := Nat.exists_eq_succ_of_ne_zero (n := fuel) (by omega)
    obtain ⟨-, w', -, hstep, hnext, hresponders, -⟩ := h.happen_early
    simp only [World.runFor, h.areOver_eq, hstep, Bool.false_eq_true, if_false]
    refine ih hnext ?_
    rw [h.agenda, List.cons_append, List.length_cons] at hfuel
    rw [hnext.agenda, hresponders]
    omega

end Starting

end Custody.Rehearsal
