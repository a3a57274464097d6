import Custody.Proofs.Rehearsal.Course
/-!
# Steps of a rehearsal

What the next thing that happens makes of a rehearsal in which one call goes on.
-/

namespace Custody.Rehearsal

open Ceremony

/-! ## Responders -/

namespace World

variable {w : World}

/-- Nobody publishes in the past. -/
theorem now_le_due {r : Responder} {time : Nat} (h : w.due? r = some time) : w.now ≤ time := by
  unfold due? at h
  split at h
  · cases h
  · obtain rfl := Option.some.inj h
    have hperiod : 0 < max 1 r.response.period := by omega
    generalize max 1 r.response.period = period at hperiod
    have hmod := Nat.mod_lt (w.now - r.start + period - 1) hperiod
    have hdiv := Nat.div_add_mod (w.now - r.start + period - 1) period
    rw [Nat.mul_comm] at hdiv
    omega

/-- `w.Picks responders due r others`: of the responders one finds at a time that somebody listens,
and the others stay. -/
structure Picks (w : World) (responders : List Responder) (due : Nat) (r : Responder)
    (others : List Responder) : Prop where
  due_eq : w.due? r = some due
  length_eq : others.length + 1 = responders.length
  mem : r ∈ responders
  subset : ∀ other ∈ others, other ∈ responders

/-- **Who publishes first**: one of the responders, and none of them would publish earlier. -/
theorem firstDue_spec (w : World) (responders : List Responder) :
    (w.firstDue responders).elim (∀ r ∈ responders, w.due? r = none) fun (due, r, others) =>
      w.due? r = some due ∧ (r :: others).Perm responders ∧
        ∀ other ∈ responders, ∀ later ∈ w.due? other, due ≤ later := by
  induction responders with
  | nil => exact List.forall_mem_nil _
  | cons first rest ih =>
    have hfirst {due : Nat} (hdue : w.due? first = some due)
        (hrest : ∀ other ∈ rest, ∀ later ∈ w.due? other, due ≤ later) :
        ∀ other ∈ first :: rest, ∀ later ∈ w.due? other, due ≤ later := by
      refine List.forall_mem_cons.2 ⟨fun later hlater => ?_, hrest⟩
      exact Nat.le_of_eq (Option.some.inj (hdue.symm.trans hlater))
    cases hf : w.firstDue rest with
    | none =>
      rw [hf] at ih
      cases hd : w.due? first with
      | none =>
        simp only [firstDue, hf, hd]
        exact List.forall_mem_cons.2 ⟨hd, ih⟩
      | some due =>
        simp only [firstDue, hf, hd]
        exact ⟨hd, .refl _, hfirst hd fun other hother later hlater => by
          simp [ih other hother] at hlater⟩
    | some found =>
      obtain ⟨later, r, others⟩ := found
      rw [hf] at ih
      obtain ⟨hdue, hperm, hmin⟩ := ih
      have hswap : (r :: first :: others).Perm (first :: rest) :=
        (List.Perm.swap ..).trans (hperm.cons first)
      cases hd : w.due? first with
      | none =>
        simp only [firstDue, hf, hd]
        exact ⟨hdue, hswap, List.forall_mem_cons.2 ⟨fun _ h => by simp [hd] at h, hmin⟩⟩
      | some due =>
        simp only [firstDue, hf, hd]
        split
        · next hlt =>
          refine ⟨hdue, hswap, List.forall_mem_cons.2 ⟨fun other h => ?_, hmin⟩⟩
          obtain rfl := Option.some.inj (hd.symm.trans h)
          exact Nat.le_of_lt hlt
        · next hle =>
          exact ⟨hd, .refl _, hfirst hd fun other hother other' h =>
            Nat.le_trans (Nat.le_of_not_lt hle) (hmin other hother other' h)⟩

theorem picks_of_perm {responders others : List Responder} {r : Responder} {due : Nat}
    (hdue : w.due? r = some due) (hperm : (r :: others).Perm responders) :
    w.Picks responders due r others where
  due_eq := hdue
  length_eq := hperm.length_eq
  mem := hperm.subset List.mem_cons_self
  subset _ hmem := hperm.subset (.tail _ hmem)

theorem picks_of_firstDue {responders others : List Responder} {r : Responder} {due : Nat}
    (h : w.firstDue responders = some (due, r, others)) : w.Picks responders due r others := by
  have hspec := firstDue_spec w responders
  rw [h] at hspec
  exact picks_of_perm hspec.1 hspec.2.1

/-- **The next thing that happens** is the first item of the agenda, unless a responder comes before
it; then it is the first of them. -/
theorem step?_first {x : Item} {rest : List Item} (h : w.agenda = x :: rest) :
    (w.step? = some ({ w with now := x.1, agenda := rest }.happen x.2) ∧
      ∀ r ∈ w.responders, ∀ due ∈ w.due? r, x.1 ≤ due) ∨
    ∃ due r others, w.step? = some (w.respond due r others) ∧ due < x.1 ∧ w.due? r = some due ∧
      (r :: others).Perm w.responders ∧
        ∀ other ∈ w.responders, ∀ later ∈ w.due? other, due ≤ later := by
  obtain ⟨time, o⟩ := x
  have hspec := firstDue_spec w w.responders
  cases hf : w.firstDue w.responders with
  | none =>
    rw [hf] at hspec
    exact .inl ⟨by simp [step?, h, hf], fun r hr due hdue => by simp [hspec r hr] at hdue⟩
  | some found =>
    obtain ⟨due, r, others⟩ := found
    rw [hf] at hspec
    obtain ⟨hdue, hperm, hmin⟩ := hspec
    by_cases hlt : due < time
    · exact .inr ⟨due, r, others, by simp [step?, h, hf, hlt], hlt, hdue, hperm, hmin⟩
    · exact .inl ⟨by simp [step?, h, hf, hlt], fun other hother later hlater =>
        Nat.le_trans (Nat.le_of_not_lt hlt) (hmin other hother later hlater)⟩

/-- The next thing that happens is the first item of the agenda, or a responder that comes before
it. -/
theorem step?_of_cons {x : Item} {rest : List Item} (h : w.agenda = x :: rest) :
    w.step? = some ({ w with now := x.1, agenda := rest }.happen x.2) ∨
      ∃ due r others, w.Picks w.responders due r others ∧ due < x.1 ∧
        w.step? = some (w.respond due r others) :=
  (step?_first h).imp And.left fun ⟨due, r, others, hstep, hlt, hdue, hperm, _⟩ =>
    ⟨due, r, others, picks_of_perm hdue hperm, hlt, hstep⟩

end World

/-- What a cluster does on a channel once somebody listens there. -/
def Response.ops (response : Response) (channel : String) : List Outside :=
  response.payloads.map (Outside.publish channel) ++
    if response.closes then [.close channel] else []

namespace World

variable {w : World}

/-- A responder gives up, or does what others could do as well. -/
theorem respond_eq (w : World) (due : Nat) (r : Responder) (others : List Responder) :
    (World.Responder.hasGivenUp r due = true ∧
      w.respond due r others = { w with responders := others }) ∨
    ∃ log, w.respond due r others =
      { { w with now := due, responders := others }.happen
          (.input (.outside (r.response.ops r.channel))) with log } := by
  unfold respond
  split
  · next h => exact .inl ⟨h, rfl⟩
  · exact .inr ⟨w.log, rfl⟩

/-! ## Effects and ends -/

variable {S : Setup}

/-- **What the effects of the call plan.** -/
theorem plans_serve (hcluster : w.cluster = S.cluster) (hbroker : w.broker = S.broker)
    (htask : (w.tasks.find? (·.id == S.id)).bind Task.request = some S.request)
    (effects : List Effect) :
    w.Plans (effects.flatMap (S.planned w.now)) (effects.flatMap (S.waiters w.now))
      ((effects.map (S.id, ·)).foldl serve w) := by
  induction effects generalizing w with
  | nil => exact .refl w
  | cons effect rest ih =>
    have hfirst : w.Plans (S.planned w.now effect) (S.waiters w.now effect)
        (w.serve (S.id, effect)) := by
      cases effect with
      | notify =>
        simp only [serve, htask, Setup.planned, Setup.waiters, ← hcluster]
        exact w.plans_notify S.id S.request
      | subscribe =>
        simp only [Setup.planned, Setup.waiters, ← hbroker]
        exact w.plans_subscribe S.id
      | release => exact .refl w
    have hsame := hfirst.eq
    have hnow : (w.serve (S.id, effect)).now = w.now := by rw [hsame]
    have hrest := ih (w := w.serve (S.id, effect)) (by rw [hsame]; exact hcluster)
      (by rw [hsame]; exact hbroker) (by rw [hsame]; exact htask)
    rw [hnow] at hrest
    exact hfirst.trans hrest

/-- Who is noted at the end of a step. -/
theorem note_spec {run : Run} (hlone : w.fleet.Lone run) (hends : w.ends.lookup run.id = none) :
    w.note.ends.lookup run.id = (if run.phase.outcome?.isSome then some w.now else none) ∧
      ∀ e ∈ w.note.ends, e ∈ w.ends ∨ e.1 ≤ run.id := by
  obtain ⟨older, hruns, hover⟩ := hlone
  refine ⟨?_, fun e he => ?_⟩
  · have hnobody : ((older.filter fun r => r.phase.outcome?.isSome &&
        (w.ends.lookup r.id).isNone).map fun r => (r.id, w.now)).lookup run.id = none := by
      rw [List.lookup_eq_none_iff]
      intro e he
      obtain ⟨r, hr, rfl⟩ := List.mem_map.1 he
      simpa using Nat.ne_of_gt (hover r (List.mem_filter.1 hr).1).1
    simp only [note, hruns, List.filter_append, List.map_append, List.lookup_append, hends,
      Option.none_or, hnobody]
    cases hp : run.phase.outcome?.isSome <;> simp [hp, hends]
  · rcases List.mem_append.1 he with he | he
    · exact .inl he
    · obtain ⟨r, hr, rfl⟩ := List.mem_map.1 he
      have hmem := (List.mem_filter.1 hr).1
      rw [hruns, List.mem_append, List.mem_singleton] at hmem
      rcases hmem with hmem | rfl
      · exact .inr (Nat.le_of_lt (hover r hmem).1)
      · exact .inr (Nat.le_refl _)

end World

/-! ## A call that goes on -/

namespace Setup

/-- What others do in an item is noise for the call. -/
def IsNoise (S : Setup) (x : Item) : Prop :=
  ∀ input, x.2 = .input input → ∀ op ∈ input.outsides, op.IsNoise S.ceremony.channel

/-- The call hears at that moment, which is before `loud`. -/
def Hushed (S : Setup) (loud time : Nat) : Prop :=
  S.IsHearing time ∧ time < loud

/-- The trigger of the call brings it nothing but noise before the moment `loud`. -/
structure IsQuiet (S : Setup) (loud : Nat) : Prop where
  response : S.start < loud → ∀ r ∈ S.cluster.response S.request,
    ∀ op ∈ r.ops (channelOf S.request), op.IsNoise S.ceremony.channel
  script : ∀ s ∈ S.sentAfter?, ∀ x ∈ S.cluster.script S.request,
    S.Hushed loud (S.start + s + x.1) → x.2.IsNoise S.ceremony.channel

end Setup

/-- The item is an input, and for nobody with this number or a greater one. -/
def IsForOlder (number : Nat) (x : Item) : Prop :=
  ∃ input, x.2 = .input input ∧ ∀ n, number ≤ n → input.isFor n = false

theorem IsForOlder.mono {number later : Nat} {x : Item} (h : IsForOlder number x)
    (hle : number ≤ later) : IsForOlder later x := by
  obtain ⟨input, hx, hfor⟩ := h
  exact ⟨input, hx, fun n hn => hfor n (Nat.le_trans hle hn)⟩

theorem isForOlder_outside (number time : Nat) (ops : List Outside) :
    IsForOlder number (time, .input (.outside ops)) :=
  ⟨_, rfl, fun _ _ => rfl⟩

/-- Nothing in a world is out of order, and nobody has a number that is still to be given. -/
structure World.Sane (w : World) : Prop where
  orderly : Orderly w.now w.agenda
  inputs : ∀ x ∈ w.agenda, IsForOlder w.next x
  tasks : ∀ task ∈ w.tasks, task.id < w.next
  ends : ∀ e ∈ w.ends, e.1 < w.next
  sound : w.fleet.hub.Sound

/-- The call goes on as this run of a world, and what it hears before the moment `loud` is noise. -/
structure Live (S : Setup) (loud : Nat) (w : World) (run : Run) : Prop where
  sane : w.Sane
  next : w.next = S.id + 1
  cluster : w.cluster = S.cluster
  broker : w.broker = S.broker
  start_le : S.start ≤ w.now
  lone : w.fleet.Lone run
  id : run.id = S.id
  ceremony : run.ceremony = S.ceremony
  task : (w.tasks.find? (·.id == S.id)).bind Task.request = some S.request
  ends : w.ends.lookup S.id = none
  calm : w.now < loud → run.Calm w.fleet.hub
  hearing : run.receiver.isSome = true → S.IsHearing w.now
  noise : ∀ x ∈ w.agenda, S.Hushed loud x.1 → S.IsNoise x
  ignored : w.now < loud → ∀ r ∈ w.responders, ∀ op ∈ r.response.ops r.channel,
    op.IsNoise S.ceremony.channel

/-! ## What the effects of a call plan -/

namespace Setup

variable {S : Setup} {loud now : Nat}

/-- What is planned concerns nobody else. -/
theorem isForOlder_planned (S : Setup) (now : Nat) (effect : Effect) :
    ∀ x ∈ S.planned now effect, IsForOlder (S.id + 1) x := by
  intro x hx
  cases effect with
  | notify =>
    rcases List.mem_append.1 hx with hx | hx
    · obtain ⟨d, -, rfl⟩ := mem_answerItem.1 hx
      refine ⟨_, rfl, fun n hn => ?_⟩
      simpa [Cluster.reply, Fleet.Input.isFor] using Nat.ne_of_lt hn
    · obtain ⟨burst, -, rfl⟩ := List.mem_map.1 hx
      exact isForOlder_outside ..
  | subscribe =>
    obtain ⟨d, -, rfl⟩ := mem_answerItem.1 hx
    refine ⟨_, rfl, fun n hn => ?_⟩
    unfold Broker.reply
    cases S.broker.attachment <;> simpa [Fleet.Input.isFor] using Nat.ne_of_lt hn
  | release => cases hx

theorem isNoise_of_outsides {x : Item} {input : Fleet.Input} (hx : x.2 = .input input)
    (hn : ∀ op ∈ input.outsides, op.IsNoise S.ceremony.channel) : S.IsNoise x := by
  intro input' hx'
  obtain rfl := Occurrence.input.inj (hx.symm.trans hx')
  exact hn

/-- **What is planned in a quiet case is noise**, as long as it comes early enough. -/
theorem IsQuiet.planned (hq : S.IsQuiet loud) {effect : Effect}
    (hsent : effect = .notify → ∃ s ∈ S.sentAfter?, now = S.start + s) :
    ∀ x ∈ S.planned now effect, S.Hushed loud x.1 → S.IsNoise x := by
  intro x hx hhushed
  cases effect with
  | notify =>
    rcases List.mem_append.1 hx with hx | hx
    · obtain ⟨d, -, rfl⟩ := mem_answerItem.1 hx
      exact isNoise_of_outsides rfl nofun
    · obtain ⟨burst, hburst, rfl⟩ := List.mem_map.1 hx
      obtain ⟨s, hs, rfl⟩ := hsent rfl
      refine isNoise_of_outsides rfl fun op hop => ?_
      have hmem := (bursts_spec (S.cluster.script S.request)).2 burst hburst op hop
      exact hq.script s hs _ hmem hhushed
  | subscribe =>
    obtain ⟨d, -, rfl⟩ := mem_answerItem.1 hx
    refine isNoise_of_outsides rfl ?_
    unfold Broker.reply
    cases S.broker.attachment <;> nofun
  | release => cases hx

theorem IsQuiet.waiters (hq : S.IsQuiet loud) (hlt : S.start < loud) (effect : Effect) :
    ∀ r ∈ S.waiters now effect, ∀ op ∈ r.response.ops r.channel,
      op.IsNoise S.ceremony.channel := by
  intro r hr
  cases effect with
  | notify =>
    obtain ⟨response, hresponse, rfl⟩ := Option.map_eq_some_iff.1 (Option.mem_toList.1 hr)
    exact hq.response hlt response hresponse
  | subscribe => cases hr
  | release => cases hr

/-- What is on the agenda stays the matter of those who have their number. -/
theorem isForOlder_of_adds {effects : List Effect} {before after : List Item}
    (h : Adds now (effects.flatMap (S.planned now)) before after)
    (hbefore : ∀ x ∈ before, IsForOlder (S.id + 1) x) : ∀ x ∈ after, IsForOlder (S.id + 1) x := by
  refine h.forall_mem _ (fun _ _ _ _ _ => isForOlder_outside ..) fun x hx => ?_
  rcases List.mem_append.1 hx with hx | hx
  · obtain ⟨effect, -, hx⟩ := List.mem_flatMap.1 hx
    exact S.isForOlder_planned now effect x hx
  · exact hbefore x hx

/-- What is put together of noise is noise. -/
theorem forall_isNoise_of_adds {items before after : List Item} (h : Adds now items before after)
    (hall : ∀ x ∈ items ++ before, S.Hushed loud x.1 → S.IsNoise x) :
    ∀ x ∈ after, S.Hushed loud x.1 → S.IsNoise x := by
  refine h.forall_mem _ (fun time ops more hops hmore hhushed => ?_) hall
  refine isNoise_of_outsides rfl fun op hop => ?_
  rcases List.mem_append.1 hop with hop | hop
  · exact hops hhushed _ rfl op hop
  · exact hmore hhushed _ rfl op hop

/-- **In a quiet case nothing but noise is added** to the agenda early enough. -/
theorem IsQuiet.forall_isNoise (hq : S.IsQuiet loud) {effects : List Effect}
    {before after : List Item} (h : Adds now (effects.flatMap (S.planned now)) before after)
    (hsent : .notify ∈ effects → ∃ s ∈ S.sentAfter?, now = S.start + s)
    (hbefore : ∀ x ∈ before, S.Hushed loud x.1 → S.IsNoise x) :
    ∀ x ∈ after, S.Hushed loud x.1 → S.IsNoise x := by
  refine forall_isNoise_of_adds h fun x hx => ?_
  rcases List.mem_append.1 hx with hx | hx
  · obtain ⟨effect, heffect, hx⟩ := List.mem_flatMap.1 hx
    exact hq.planned (fun he => hsent (he ▸ heffect)) x hx
  · exact hbefore x hx

/-- In a quiet case those who wait for a subscriber have nothing but noise for the call. -/
theorem IsQuiet.forall_ignored (hq : S.IsQuiet loud) (hlt : S.start < loud) (effects : List Effect)
    {responders : List Responder}
    (h : ∀ r ∈ responders, ∀ op ∈ r.response.ops r.channel, op.IsNoise S.ceremony.channel) :
    ∀ r ∈ responders ++ effects.flatMap (S.waiters now), ∀ op ∈ r.response.ops r.channel,
      op.IsNoise S.ceremony.channel := by
  intro r hr
  rcases List.mem_append.1 hr with hr | hr
  · exact h r hr
  · obtain ⟨effect, -, hr⟩ := List.mem_flatMap.1 hr
    exact hq.waiters hlt effect r hr

end Setup

/-! ## One step of a call that goes on -/

/-- The hub and the run that an input leads to, when the run has read. -/
def reached (w : World) (run : Run) (input : Fleet.Input) : Hub × Run :=
  Fleet.settleRun (run.meet w.fleet.hub input).2.1 (run.meet w.fleet.hub input).2.2

/-- `Turned S w effects hub run w'`: something has happened to the call. It has come to this run and
this hub, and has asked for these effects. -/
structure Turned (S : Setup) (w : World) (effects : List Effect) (hub : Hub) (run : Run)
    (w' : World) : Prop where
  eq : w' = { w with
    fleet := w'.fleet, agenda := w'.agenda, requests := w'.requests, log := w'.log, ends := w'.ends
    responders := w.responders ++ effects.flatMap (S.waiters w.now) }
  adds : Adds w.now (effects.flatMap (S.planned w.now)) w.agenda w'.agenda
  hub_eq : w'.fleet.hub = hub
  lone : w'.fleet.Lone run
  ends : ∀ e ∈ w'.ends, e ∈ w.ends ∨ e.1 ≤ S.id
  lookup : w'.ends.lookup S.id = if run.phase.outcome?.isSome then some w.now else none

variable {S : Setup} {loud : Nat} {w : World} {run : Run}

theorem reached_id_ceremony (w : World) (run : Run) (input : Fleet.Input) :
    (reached w run input).2.id = run.id ∧
      (reached w run input).2.ceremony = run.ceremony := by
  obtain ⟨hid, hceremony⟩ := run.meet_id_ceremony w.fleet.hub input
  exact ⟨(Fleet.settleRun_id ..).trans hid, (Run.settleRun_ceremony ..).trans hceremony⟩

theorem sound_reached (hs : w.fleet.hub.Sound) (run : Run) (input : Fleet.Input) :
    (reached w run input).1.Sound :=
  Run.sound_settleRun (Run.sound_meet hs run input) _

/-- **What an input does to a world in which a call goes on.** -/
theorem Live.turned (h : Live S loud w run) (input : Fleet.Input) :
    Turned S w (run.meet w.fleet.hub input).1 (reached w run input).1 (reached w run input).2
      (w.happen (.input input)) := by
  obtain ⟨heffects, hhub, hlone⟩ := h.lone.step input
  have hid := (reached_id_ceremony w run input).1.trans h.id
  -- the world before and after the effects are served
  let stepped : World := { w with
    fleet := (w.fleet.step input).2, log := w.log ++ (w.fleet.step input).1.answers }
  have hplans := World.plans_serve (w := stepped) h.cluster h.broker h.task
    (run.meet w.fleet.hub input).1
  rw [← h.id, ← heffects] at hplans
  have hhappen : w.happen (.input input) =
      ((w.fleet.step input).1.effects.foldl World.serve stepped).note := rfl
  rw [hhappen]
  generalize (w.fleet.step input).1.effects.foldl World.serve stepped = served at hplans ⊢
  obtain ⟨hsame, hadds⟩ := hplans
  have hfleet : served.fleet = (w.fleet.step input).2 := by rw [hsame]
  have hnow : served.now = w.now := by rw [hsame]
  have hends : served.ends = w.ends := by rw [hsame]
  have hlone' : served.fleet.Lone (reached w run input).2 := hfleet ▸ hlone
  obtain ⟨hlookup, hnoted⟩ := World.note_spec hlone' (by rw [hends, hid, h.ends])
  rw [hid, hnow] at hlookup
  rw [hid, hends] at hnoted
  refine ⟨?_, hadds, ?_, hlone', hnoted, hlookup⟩
  · rw [hsame]
    rfl
  · exact (congrArg Fleet.hub hfleet).trans hhub

/-- Nothing gets out of order. -/
theorem Turned.sane {effects : List Effect} {hub : Hub} {w' : World}
    (h : Turned S w effects hub run w') (hw : w.Sane) (hnext : w.next = S.id + 1)
    (hs : hub.Sound) : w'.Sane := by
  have hnow : w'.now = w.now := by rw [h.eq]
  have hnext' : w'.next = w.next := by rw [h.eq]
  have htasks : w'.tasks = w.tasks := by rw [h.eq]
  refine ⟨hnow ▸ h.adds.orderly hw.orderly, ?_, hnext' ▸ htasks ▸ hw.tasks, fun e he => ?_,
    h.hub_eq ▸ hs⟩
  · rw [hnext', hnext]
    exact Setup.isForOlder_of_adds h.adds (hnext ▸ hw.inputs)
  · rw [hnext']
    rcases h.ends e he with he | he
    · exact hw.ends e he
    · exact hnext ▸ Nat.lt_succ_of_le he

/-- **A call that has not come to its end goes on.** -/
theorem Live.happen (h : Live S loud w run) (hquiet : S.IsQuiet loud) {input : Fleet.Input}
    (hnoise : S.Hushed loud w.now → ∀ op ∈ input.outsides, op.IsNoise S.ceremony.channel)
    (hattach : input = .attach S.id → S.IsHearing w.now)
    (hsent : .notify ∈ (run.meet w.fleet.hub input).1 → ∃ s ∈ S.sentAfter?, w.now = S.start + s)
    (hgoes : (reached w run input).2.phase.outcome? = none) :
    Live S loud (w.happen (.input input)) (reached w run input).2 := by
  have ht := h.turned input
  obtain ⟨hid, hceremony⟩ := reached_id_ceremony w run input
  generalize w.happen (.input input) = w' at ht ⊢
  have hsame := ht.eq
  have hnow : w'.now = w.now := by rw [hsame]
  refine ⟨ht.sane h.sane h.next (sound_reached h.sane.sound run input), ?_, ?_, ?_, ?_, ht.lone,
    hid.trans h.id, hceremony.trans h.ceremony, ?_, ?_, fun hlt => ?_, fun hhears => ?_, ?_,
    fun hlt => ?_⟩
  · rw [hsame]; exact h.next
  · rw [hsame]; exact h.cluster
  · rw [hsame]; exact h.broker
  · rw [hnow]; exact h.start_le
  · rw [hsame]; exact h.task
  · rw [ht.lookup, hgoes]; rfl
  · rw [hnow] at hlt
    rw [ht.hub_eq]
    have hcalm := (h.calm hlt).meet h.sane.sound fun hhears =>
      h.ceremony ▸ hnoise ⟨h.hearing hhears, hlt⟩
    exact (hcalm.settle (Run.sound_meet h.sane.sound run input)).2
  · rw [hnow]
    rcases Run.isSome_receiver_meet (Run.isSome_receiver_settleRun hhears) with hheard | hopens
    · exact h.hearing hheard
    · exact hattach (h.id ▸ hopens)
  · exact hquiet.forall_isNoise ht.adds hsent h.noise
  · rw [hnow] at hlt
    have hresponders : w'.responders = w.responders ++
        (run.meet w.fleet.hub input).1.flatMap (S.waiters w.now) := by rw [hsame]
    rw [hresponders]
    exact hquiet.forall_ignored (Nat.lt_of_le_of_lt h.start_le hlt) _ (h.ignored hlt)

end Custody.Rehearsal
