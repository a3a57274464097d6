import Custody.Proofs.Fleet.Play
/-!
# Release

Whoever runs a ceremony or waits for a result leaves no subscription behind. Over any broker, all
that was opened has been let go of and released once when the operation is over (`Tenure.Settled`).
Over a hub this shows in the number of receivers: while nobody else touches the channel of a run it
is what it was before, and one more exactly while the run holds its subscription
(`Scene.Counted.play`); so it is what it was when the run is over. Both are said by
`scoped_release`.

A run of a fleet has a scene of its own, where the turns of the other runs are what others do
(`Fleet.InOrder.exists_scene`). So each of many ceremonies over one hub is released in the same way
(`Fleet.subscriberCount_of_finished`).
-/

namespace Custody

open Ceremony

/-! ## Over any broker -/

/-- Nothing is held, and all that was opened has been released once. -/
structure Tenure.Settled (t : Tenure) (opened : Nat) : Prop where
  held : t.held = none
  length_past : t.past.length = opened
  past : ∀ sub ∈ t.past, sub.IsReleased

theorem Ceremony.settled_tenure {c : Ceremony} {broker : Nat → List String × Bool}
    {events : List Event} (h : (c.run c.start.1 events).1.outcome?.isSome = true) :
    (c.tenure broker events).Settled (c.openings c.start.1 events) := by
  obtain ⟨hl, hcount⟩ := c.lawful_tenure broker events
  have hphase : (c.tenure broker events).phase = (c.run c.start.1 events).1 :=
    phase_foldl_serve events
  have hheld : (c.tenure broker events).held = none := by
    rw [← Option.isNone_iff_eq_none, ← Option.isSome_eq_false_iff, hl.isSome_held, hphase]
    exact Phase.isAttached_of_outcome? h
  exact ⟨hheld, by simpa [Tenure.count, hheld] using hcount, hl.past⟩

namespace Call

/-- The tenure of a call's ceremony. A call that its own check refuses has no subscription. -/
def tenure (config : Config) (call : Call) (broker : Nat → List String × Bool)
    (events : List Event) : Tenure :=
  match call.request config with
  | .error e => ⟨fail e, none, []⟩
  | .ok _ => (call.ceremony config).tenure broker events

/-- How many subscriptions a broker opens for a call. -/
def openings (config : Config) (call : Call) (events : List Event) : Nat :=
  match call.request config with
  | .error _ => 0
  | .ok _ => (call.ceremony config).openings (call.ceremony config).start.1 events

theorem settled_tenure {config : Config} {call : Call} {broker : Nat → List String × Bool}
    {events : List Event} (h : (call.course config events).1.outcome?.isSome = true) :
    (call.tenure config broker events).Settled (call.openings config events) := by
  unfold tenure openings
  cases hr : call.request config with
  | error e => exact ⟨rfl, rfl, by simp⟩
  | ok request =>
    simp only [course, hr] at h
    exact Ceremony.settled_tenure h

end Call

/-- The ceremony of one who waits for a result without a trigger. -/
def Ceremony.listening (key : ChannelKey) : Ceremony :=
  ⟨key, key.purpose.action, .listen⟩

/-! ## Over a hub -/

/-- A run over a hub that others use, too. -/
structure Scene where
  hub : Hub
  run : Run

namespace Scene

/-- What happens in a scene. -/
inductive Act
  /-- Others do something with the hub. -/
  | outside (op : Hub.Operation)
  | turn (t : Turn)

/-- Lets something happen. -/
def act (s : Scene) : Act → Scene
  | .outside op => { s with hub := (s.hub.apply op).2 }
  | .turn t =>
    let (hub, run) := s.run.take s.hub t
    ⟨hub, run⟩

/-- Lets things happen in order. -/
def play (s : Scene) (acts : List Act) : Scene :=
  acts.foldl act s

/-- A ceremony that starts over a hub. -/
def start (hub : Hub) (id : Nat) (c : Ceremony) : Scene :=
  ⟨hub, ⟨id, c, c.start.1, none⟩⟩

/-- Others do not touch the run's channel. -/
def Quiet (s : Scene) : List Act → Prop
  | [] => True
  | .outside op :: rest =>
    ¬ s.hub.Touches s.run.channel op ∧ (s.act (.outside op)).Quiet rest
  | .turn t :: rest => (s.act (.turn t)).Quiet rest

instance decidableQuiet : (s : Scene) → (acts : List Act) → Decidable (s.Quiet acts)
  | _, [] => .isTrue trivial
  | s, .outside op :: rest =>
    have := decidableQuiet (s.act (.outside op)) rest
    inferInstanceAs (Decidable (_ ∧ _))
  | s, .turn t :: rest => decidableQuiet (s.act (.turn t)) rest

/-- The run has a receiver exactly while it holds a subscription. It listens on the run's channel,
and besides it as many do as there are others. -/
structure Counted (channel : String) (others : Nat) (s : Scene) : Prop where
  sound : s.hub.Sound
  channel_eq : s.run.channel = channel
  isSome_receiver : s.run.receiver.isSome = s.run.phase.isAttached
  listens : ∀ id, s.run.receiver = some id →
    ∃ r, s.hub.receiver? id = some r ∧ r.listensOn channel = true
  count_eq : s.hub.subscriberCount channel =
    others + if s.run.receiver.isSome = true then 1 else 0

variable {channel : String} {others : Nat} {s : Scene}

theorem Counted.bound (h : s.Counted channel others) : s.run.Bound s.hub := by
  refine ⟨h.isSome_receiver, fun id hid => ?_⟩
  obtain ⟨r, hr, hl⟩ := h.listens id hid
  simp only [Receiver.listensOn, Bool.and_eq_true, beq_iff_eq] at hl
  exact ⟨r, hr, hl.2.trans h.channel_eq.symm⟩

/-- Others who do not touch the channel change nothing about it. -/
theorem Counted.outside (h : s.Counted channel others) {op : Hub.Operation}
    (hop : ¬ s.hub.Touches channel op) : (s.act (.outside op)).Counted channel others := by
  refine ⟨h.sound.apply op, h.channel_eq, h.isSome_receiver, fun id hid => ?_,
    (Hub.subscriberCount_of_not_touches h.sound hop).trans h.count_eq⟩
  obtain ⟨r, hr, hl⟩ := h.listens id hid
  have hafter := Hub.listensOn_after? h.sound hop (Hub.mem_of_receiver? hr)
  rw [hl] at hafter
  obtain ⟨next, hnext, hlistens⟩ := (Option.any_eq_true _ _).1 hafter
  exact ⟨next, (Hub.receiver?_apply_of_receiver? h.sound hr op).trans hnext, hlistens⟩

/-- A turn of the run keeps the count. -/
theorem Counted.took (h : s.Counted channel others) {hub' : Hub} {run' : Run}
    (ht : s.run.Took s.hub hub' run') : Counted channel others ⟨hub', run'⟩ := by
  have hsound := ht.sound h.sound
  have hbound := ht.bound h.sound h.bound
  -- reading changes nothing about who is attached
  have hread {ops : List Hub.Operation}
      (hops : ops = [] ∨ ∃ id, s.run.receiver = some id ∧ ops = [.receive id]) :
      Counted channel others { s with hub := (s.hub.run ops).2 } := by
    rcases hops with rfl | ⟨id, -, rfl⟩
    · exact h
    · exact h.outside (show ¬ s.hub.Touches channel (.receive id) from not_false)
  cases ht with
  | @attached next hr ha hv =>
    obtain rfl := h.channel_eq
    refine ⟨hsound, rfl, hbound.isSome_receiver, ?_, ?_⟩
    · rintro id ⟨⟩
      obtain ⟨hub', hsub⟩ := s.hub.exists_subscribe hv
      obtain ⟨-, -, rfl, hnew⟩ := Hub.receiver?_subscribe h.sound hsub
      exact ⟨_, hnew, by simp [Receiver.listensOn]⟩
    · have hcount := h.count_eq
      rw [hr] at hcount
      exact (Hub.subscriberCount_subscribe h.sound hv).trans (congrArg (· + 1) hcount)
  | @kept next ha ops hops =>
    have hread := hread hops
    exact ⟨hsound, h.channel_eq, hbound.isSome_receiver, hread.listens, hread.count_eq⟩
  | @released next ha id hr ops hops =>
    have hread := hread (hops.imp_right fun h => ⟨id, hr, h⟩)
    obtain ⟨r, hid, hl⟩ := hread.listens id hr
    have hcount := hread.count_eq
    have hdrop := Hub.subscriberCount_drop hread.sound hid hl
    refine ⟨hsound, h.channel_eq, hbound.isSome_receiver, by rintro id ⟨⟩,
      Nat.succ.inj (hdrop.trans ?_)⟩
    rw [hcount, hr]
    rfl

/-- **Who listens on the channel of a run**: the others, who do not touch it, and the run itself
while it holds a subscription. -/
theorem Counted.play (h : s.Counted channel others) {acts : List Act} (hq : s.Quiet acts) :
    (s.play acts).Counted channel others := by
  induction acts generalizing s with
  | nil => exact h
  | cons a rest ih =>
    cases a with
    | outside op => exact ih (h.outside (h.channel_eq ▸ hq.1)) hq.2
    | turn t => exact ih (h.took (Run.took_take h.sound h.bound t)) hq

theorem counted_start {hub : Hub} (hs : hub.Sound) (id : Nat) (c : Ceremony) :
    (start hub id c).Counted c.channel.name (hub.subscriberCount c.channel.name) :=
  ⟨hs, rfl, c.isAttached_start.symm, by rintro receiver ⟨⟩, rfl⟩

/-- A run that is over has left the number of receivers on its channel as it was. -/
theorem subscriberCount_of_finished {hub : Hub} (hs : hub.Sound) {id : Nat} {c : Ceremony}
    {acts : List Act} (hq : (start hub id c).Quiet acts)
    (h : ((start hub id c).play acts).run.phase.outcome?.isSome = true) :
    ((start hub id c).play acts).hub.subscriberCount c.channel.name =
      hub.subscriberCount c.channel.name := by
  have hcounted := (counted_start hs id c).play hq
  have hnone : ((start hub id c).play acts).run.receiver.isSome = false :=
    hcounted.isSome_receiver.trans (Phase.isAttached_of_outcome? h)
  rw [hcounted.count_eq, hnone]
  rfl

end Scene

/-! ## Scenes in a fleet -/

namespace Scene

theorem play_append (s : Scene) (first second : List Act) :
    s.play (first ++ second) = (s.play first).play second :=
  List.foldl_append ..

theorem quiet_append {s : Scene} {first second : List Act} (h : s.Quiet first)
    (h' : (s.play first).Quiet second) : s.Quiet (first ++ second) := by
  induction first generalizing s with
  | nil => exact h'
  | cons a rest ih =>
    cases a with
    | outside op => exact ⟨h.1, ih h.2 h'⟩
    | turn t => exact ih h h'

theorem play_outside (s : Scene) (ops : List Hub.Operation) :
    s.play (ops.map .outside) = { s with hub := (s.hub.run ops).2 } := by
  induction ops generalizing s with
  | nil => rfl
  | cons op rest ih => exact ih (s.act (.outside op))

/-- The turn of another run, with a channel of its own, is something that others do with the hub. -/
theorem exists_acts_of_took {s : Scene} (hs : s.hub.Sound) {other : Run} {hub' : Hub}
    {other' : Run} (hb : other.Bound s.hub) (h : other.Took s.hub hub' other')
    (hc : other.channel ≠ s.run.channel) :
    ∃ acts, s.play acts = { s with hub := hub' } ∧ s.Quiet acts := by
  have hread {ops : List Hub.Operation}
      (hops : ops = [] ∨ ∃ id, other.receiver = some id ∧ ops = [.receive id]) :
      s.Quiet (ops.map .outside) := by
    rcases hops with rfl | ⟨id, -, rfl⟩
    · trivial
    · exact ⟨not_false, trivial⟩
  cases h with
  | attached hr ha hv => exact ⟨[.outside (.subscribe other.channel)], rfl, hc, trivial⟩
  | @kept next ha ops hops => exact ⟨ops.map .outside, s.play_outside ops, hread hops⟩
  | @released next ha id hr ops hops =>
    refine ⟨ops.map .outside ++ [.outside (.drop id)], ?_, ?_⟩
    · rw [play_append, play_outside]
      rfl
    · refine quiet_append (hread (hops.imp_right fun h => ⟨id, hr, h⟩)) ⟨?_, trivial⟩
      -- the receiver is still on the other channel
      rw [play_outside]
      rintro ⟨r, hget, hchannel⟩
      obtain ⟨old, hold, holdc⟩ := hb.receiver?_eq id hr
      rcases hops with rfl | rfl
      · obtain rfl := Option.some.inj (hold.symm.trans hget)
        exact hc (holdc.symm.trans hchannel)
      · have hafter := (Hub.receiver?_apply_of_receiver? hs hold (.receive id)).symm.trans hget
        exact hc (holdc.symm.trans ((Receiver.after?_channel hafter).symm.trans hchannel))

end Scene

namespace Fleet

variable {fleet : Fleet} {id : Nat} {run : Run}

/-- What happens to a fleet is, for one of its runs, what happens in its scene. -/
theorem InOrder.exists_acts (h : fleet.InOrder) (hrun : fleet.run? id = some run) {a : Act}
    (ha : a ≠ .outside (.close run.channel)) :
    ∃ acts, (fleet.act a).run? id = some ((Scene.mk fleet.hub run).play acts).run ∧
      ((Scene.mk fleet.hub run).play acts).hub = (fleet.act a).hub ∧
      (Scene.mk fleet.hub run).Quiet acts := by
  cases a with
  | outside op =>
    refine ⟨[.outside op.operation], hrun, rfl, ?_, trivial⟩
    cases op with
    | publish name payload => exact not_false
    | close name => exact fun hn => ha (by rw [← show name = run.channel from hn])
    | prune => exact not_false
  | turn number t =>
    by_cases hn : number = id
    · subst hn
      obtain ⟨hhub, hself, -⟩ := act_turn hrun t
      exact ⟨[.turn t], hself, hhub.symm, trivial⟩
    · cases hother : fleet.run? number with
      | none =>
        rw [act_turn_of_none hother]
        exact ⟨[], hrun, rfl, trivial⟩
      | some other =>
        obtain ⟨hhub, -, hothers⟩ := act_turn hother t
        have hb := h.bound number other hother
        have hc : other.channel ≠ run.channel :=
          fun hc => hn (h.apart number id other run hother hrun hc)
        obtain ⟨acts, hplay, hquiet⟩ := Scene.exists_acts_of_took (s := ⟨fleet.hub, run⟩) h.sound
          hb (Run.took_take h.sound hb t) hc
        refine ⟨acts, ?_, ?_, hquiet⟩
        · rw [hplay]
          exact (hothers id (Ne.symm hn)).trans hrun
        · rw [hplay]
          exact hhub.symm

/-- **A play of a fleet is a scene for each of its runs**, and a quiet one if nobody closes the
run's channel. -/
theorem InOrder.exists_scene (h : fleet.InOrder) (hrun : fleet.run? id = some run) {acts : List Act}
    (hacts : .outside (.close run.channel) ∉ acts) :
    ∃ scene, (fleet.play acts).run? id = some ((Scene.mk fleet.hub run).play scene).run ∧
      ((Scene.mk fleet.hub run).play scene).hub = (fleet.play acts).hub ∧
      (Scene.mk fleet.hub run).Quiet scene := by
  induction acts generalizing fleet run with
  | nil => exact ⟨[], hrun, rfl, trivial⟩
  | cons a rest ih =>
    rw [List.mem_cons, not_or] at hacts
    obtain ⟨first, hself, hhub, hquiet⟩ := h.exists_acts hrun (Ne.symm hacts.1)
    obtain ⟨run', hrun', hchannel⟩ := exists_run?_act hrun a
    obtain rfl := Option.some.inj (hself.symm.trans hrun')
    obtain ⟨later, hrest⟩ := ih (h.act a) hrun' (by rw [hchannel]; exact hacts.2)
    rw [← hhub] at hrest
    exact ⟨first ++ later, by rw [Scene.play_append]; exact hrest.1,
      by rw [Scene.play_append]; exact hrest.2.1, Scene.quiet_append hquiet hrest.2.2⟩

/-- **Release in a fleet.** Of ceremonies with different channels that run over one hub, one that is
over has left the number of receivers on its channel as it was, if nobody has closed it. -/
theorem subscriberCount_of_finished {hub : Hub} (hs : hub.Sound) {ceremonies : List Ceremony}
    (hd : (ceremonies.map Ceremony.channel).Nodup) {c : Ceremony} (hc : ceremonies[id]? = some c)
    {acts : List Act} (hacts : .outside (.close c.channel.name) ∉ acts)
    (h : ((launched hub ceremonies).play acts).run? id = some run)
    (hover : run.phase.outcome?.isSome = true) :
    ((launched hub ceremonies).play acts).hub.subscriberCount c.channel.name =
      hub.subscriberCount c.channel.name := by
  have hrun : (launched hub ceremonies).run? id = some ⟨id, c, c.start.1, none⟩ :=
    run?_launched.2 ⟨c, hc, rfl⟩
  obtain ⟨scene, hself, hhub, hquiet⟩ := (inOrder_launched hs hd).exists_scene hrun hacts
  obtain rfl := Option.some.inj (h.symm.trans hself)
  rw [(launched_hub_runs hub ceremonies).1] at hover hhub hquiet
  rw [← hhub]
  exact Scene.subscriberCount_of_finished hs hquiet hover

end Fleet

/-- **Release.** When a call of a coordinator is over, with a result, an error or because it has
been given up, it holds no subscription, and each that a broker has opened for it, whatever the
broker is, has been released once with its stream dropped. The same holds of one who waits for a
result without a trigger. Over a hub, and while nobody else touches the channel, as many receivers
are attached to it after an operation as before. -/
theorem scoped_release :
    (∀ (config : Config) (call : Call) (broker : Nat → List String × Bool) (events : List Event),
      (call.course config events).1.outcome?.isSome = true →
        (call.tenure config broker events).Settled (call.openings config events)) ∧
    (∀ (key : ChannelKey) (broker : Nat → List String × Bool) (events : List Event),
      ((listening key).run (listening key).start.1 events).1.outcome?.isSome = true →
        ((listening key).tenure broker events).Settled
          ((listening key).openings (listening key).start.1 events)) ∧
    ∀ (capacity : Nat) (earlier : List Hub.Operation) (id : Nat) (c : Ceremony)
      (acts : List Scene.Act),
      let hub := ((Hub.new capacity).run earlier).2
      (Scene.start hub id c).Quiet acts →
        ((Scene.start hub id c).play acts).run.phase.outcome?.isSome = true →
          ((Scene.start hub id c).play acts).hub.subscriberCount c.channel.name =
            hub.subscriberCount c.channel.name := by
  refine ⟨fun config call broker events => Call.settled_tenure,
    fun key broker events => settled_tenure, ?_⟩
  intro capacity earlier id c acts hub hq hover
  exact Scene.subscriberCount_of_finished (Hub.sound_run (Hub.sound_new capacity) earlier) hq hover

/-- The standard configuration, but the subscription comes before the trigger. -/
def Config.early : Config :=
  { Config.standard with subscribeFirst := true }

/-- A trigger that is refused while the subscription is open, over any broker, and over a hub where
somebody else listens on the channel. -/
theorem scoped_release_of_refused :
    (Call.firstWallet.tenure .early (fun _ => (["unread"], false))
        [.attached, .refused (.transport "down")]).Settled 1 ∧
      ((Scene.start ((Hub.new 4).run [.subscribe "keygen:s1", .subscribe "sign:s1"]).2 0
          (Call.firstWallet.ceremony .early)).play
        [.turn .attach, .outside (.publish "keygen:s1" "early"), .outside (.close "sign:s1"),
          .turn (.signal (.refused (.transport "down")))]).hub.subscriberCount "keygen:s1" = 1 := by
  obtain ⟨hcall, -, hhub⟩ := scoped_release
  refine ⟨hcall .early .firstWallet _ [.attached, .refused (.transport "down")] rfl, ?_⟩
  exact Eq.trans (hhub 4 _ 0 (Call.firstWallet.ceremony .early) _ (by decide) rfl) rfl

end Custody
