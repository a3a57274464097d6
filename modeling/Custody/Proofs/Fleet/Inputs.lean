import Custody.Proofs.Fleet.Listening
import Custody.Proofs.Session.Id
/-!
# Fleets under any inputs

What is put to a fleet may come in any order, and a run may be told that its subscription is open
although the hub has opened none. Still:

* `Fleet.names_step`: the runs stay what they are;
* `Fleet.Tuned.step`: a receiver that a run holds listens on the run's own channel;
* `Fleet.OnCourse.step`: each run is where some course of its ceremony leads to, and that course
  meets no refusal but those that the inputs tell of: the hub refuses no channel of a session.
-/

namespace Custody

open Ceremony

/-! ## Hubs to which nobody is attached -/

namespace Hub

/-- `hub.Keeps later`: in the meantime nobody has been attached. -/
structure Keeps (hub later : Hub) : Prop where
  next_eq : later.next = hub.next
  mem : ∀ r ∈ later.receivers, ∃ old ∈ hub.receivers, old.id = r.id ∧ old.channel = r.channel

variable {hub middle later : Hub}

theorem Keeps.refl (hub : Hub) : hub.Keeps hub :=
  ⟨rfl, fun r hr => ⟨r, hr, rfl, rfl⟩⟩

theorem Keeps.trans (h : hub.Keeps middle) (h' : middle.Keeps later) : hub.Keeps later := by
  refine ⟨h'.next_eq.trans h.next_eq, fun r hr => ?_⟩
  obtain ⟨between, hbetween, hid', hchannel'⟩ := h'.mem r hr
  obtain ⟨old, hold, hid, hchannel⟩ := h.mem between hbetween
  exact ⟨old, hold, hid.trans hid', hchannel.trans hchannel'⟩

/-- What keeps the number and the channel of every receiver attaches nobody. -/
theorem keeps_map {change : Receiver → Receiver}
    (h : ∀ r, (change r).id = r.id ∧ (change r).channel = r.channel) :
    hub.Keeps { hub with receivers := hub.receivers.map change } := by
  refine ⟨rfl, fun r hr => ?_⟩
  obtain ⟨old, hold, rfl⟩ := List.mem_map.1 hr
  exact ⟨old, hold, (h old).1.symm, (h old).2.symm⟩

theorem keeps_drop (hub : Hub) (id : ReceiverId) : hub.Keeps (hub.drop id).2 :=
  ⟨rfl, fun r hr => ⟨r, List.mem_of_mem_filter hr, rfl, rfl⟩⟩

theorem keeps_drain (hub : Hub) (id : ReceiverId) : hub.Keeps (hub.drain id).2.2 := by
  unfold drain
  split
  · exact .refl hub
  · refine keeps_map fun r => ?_
    split <;> exact ⟨rfl, rfl⟩

/-- Others attach nobody. -/
theorem keeps_outside (hub : Hub) (op : Outside) : hub.Keeps (hub.apply op.operation).2 := by
  cases op with
  | publish channel payload =>
    simp only [Outside.operation, apply, publish]
    cases ChannelName.fault? channel with
    | some fault => exact .refl hub
    | none =>
      refine keeps_map fun r => ?_
      split
      · exact ⟨r.deliver_id .., r.deliver_channel ..⟩
      · exact ⟨rfl, rfl⟩
  | close channel =>
    have hmap : hub.Keeps { hub with receivers := hub.receivers.map fun r =>
        if r.channel = channel then { r with isOpen := false } else r } := by
      refine keeps_map fun r => ?_
      split <;> exact ⟨rfl, rfl⟩
    exact ⟨rfl, hmap.mem⟩
  | prune => exact ⟨rfl, (Keeps.refl hub).mem⟩

theorem keeps_outsides (hub : Hub) (ops : List Outside) :
    hub.Keeps (hub.run (ops.map Outside.operation)).2 := by
  induction ops generalizing hub with
  | nil => exact .refl hub
  | cons op rest ih => exact (hub.keeps_outside op).trans (ih _)

end Hub

/-! ## Runs that listen on their own channels -/

namespace Run

/-- If the run holds a receiver, that listens on the run's channel. -/
def Tuned (hub : Hub) (run : Run) : Prop :=
  ∀ id, run.receiver = some id →
    id < hub.next ∧ ∀ r ∈ hub.receivers, r.id = id → r.channel = run.channel

variable {hub later : Hub} {run : Run}

theorem tuned_of_receiver_eq_none (h : run.receiver = none) : run.Tuned hub := by
  intro id hid
  rw [h] at hid
  cases hid

theorem Tuned.keeps (h : run.Tuned hub) (hk : hub.Keeps later) : run.Tuned later := by
  intro id hid
  obtain ⟨hlt, hchannel⟩ := h id hid
  refine ⟨hk.next_eq ▸ hlt, fun r hr hr' => ?_⟩
  obtain ⟨old, hold, hid', hsame⟩ := hk.mem r hr
  rw [← hsame]
  exact hchannel old hold (hid'.trans hr')

/-- A run that is put on its way keeps its receiver or drops it. -/
theorem Tuned.release {effects : List Effect} {phase : Phase} (h : run.Tuned hub) :
    hub.Keeps (Fleet.release hub { run with phase } effects).1 ∧
      (Fleet.release hub { run with phase } effects).2.Tuned
        (Fleet.release hub { run with phase } effects).1 := by
  unfold Fleet.release
  split
  · exact ⟨.refl hub, h⟩
  · split
    · exact ⟨hub.keeps_drop _, tuned_of_receiver_eq_none rfl⟩
    · exact ⟨.refl hub, h⟩

theorem Tuned.advance (h : run.Tuned hub) (e : Event) :
    hub.Keeps (Fleet.advance hub run e).2.1 ∧
      (Fleet.advance hub run e).2.2.Tuned (Fleet.advance hub run e).2.1 :=
  h.release

theorem Tuned.settleRun (h : run.Tuned hub) :
    hub.Keeps (Fleet.settleRun hub run).1 ∧
      (Fleet.settleRun hub run).2.Tuned (Fleet.settleRun hub run).1 := by
  unfold Fleet.settleRun
  split
  · next receiver _ _ =>
    have hdrained := hub.keeps_drain receiver
    obtain ⟨hkeeps, htuned⟩ := (h.keeps hdrained).release
    exact ⟨hdrained.trans hkeeps, htuned⟩
  · exact ⟨.refl hub, h⟩

end Run

/-! ## Inputs -/

namespace Fleet

/-- The runs of a fleet, each with what it is about. -/
def names (fleet : Fleet) : List (Nat × Ceremony) :=
  fleet.runs.map fun run => (run.id, run.ceremony)

/-- The receivers of the hub are numbered, and whoever holds one listens on his own channel. -/
structure Tuned (fleet : Fleet) : Prop where
  id_lt : ∀ r ∈ fleet.hub.receivers, r.id < fleet.hub.next
  runs : ∀ run ∈ fleet.runs, run.Tuned fleet.hub

variable {fleet : Fleet}

theorem names_settle (fleet : Fleet) : fleet.settle.names = fleet.names := by
  have hall (hub : Hub) (runs : List Run) :
      ((settleAll hub runs).2.map fun run => (run.id, run.ceremony)) =
        runs.map fun run => (run.id, run.ceremony) := by
    induction runs generalizing hub with
    | nil => rfl
    | cons run rest ih =>
      simp only [settleAll, List.map_cons, ih, settleRun_id, Run.settleRun_ceremony]
  exact hall fleet.hub fleet.runs

/-- Where no two runs have one number, a run that is put back is about what it was about. -/
theorem names_put {run next : Run} (hd : (fleet.runs.map Run.id).Nodup) (hrun : run ∈ fleet.runs)
    (hid : next.id = run.id) (hceremony : next.ceremony = run.ceremony) :
    (fleet.put next).names = fleet.names := by
  simp only [names, put, List.map_map]
  refine List.map_congr_left fun other hother => ?_
  by_cases hsame : other.id = next.id
  · obtain rfl : other = run := List.inj_on_of_nodup_map hd hother hrun (hsame.trans hid)
    simp [hsame, hceremony]
  · simp [hsame]

/-- **An input leaves the runs what they are.** -/
theorem names_step (hd : (fleet.runs.map Run.id).Nodup) (input : Input) :
    (fleet.step input).2.names = fleet.names := by
  have hperform : (fleet.perform input).2.names = fleet.names := by
    cases input with
    | outside ops => rfl
    | event id e =>
      cases hrun : fleet.run? id with
      | none => simp only [perform, hrun]
      | some run =>
        simp only [perform, hrun]
        obtain ⟨hid, hceremony⟩ := Run.advance_id_ceremony fleet.hub run e
        exact names_put hd (mem_of_run? hrun) hid hceremony
    | attach id =>
      cases hrun : fleet.run? id with
      | none => simp only [perform, hrun]
      | some run =>
        simp only [perform, hrun, attach]
        split
        · split
          · obtain ⟨hid, hceremony⟩ := Run.advance_id_ceremony fleet.hub run _
            exact names_put hd (mem_of_run? hrun) hid hceremony
          · next receiver hub _ =>
            obtain ⟨hid, hceremony⟩ := Run.advance_id_ceremony hub
              { run with receiver := some receiver } .attached
            exact names_put hd (mem_of_run? hrun) hid hceremony
        · rfl
  exact (names_settle _).trans hperform

theorem Tuned.of_keeps {hub : Hub} (h : fleet.Tuned) (hk : fleet.hub.Keeps hub) :
    ({ fleet with hub } : Fleet).Tuned := by
  refine ⟨fun r hr => ?_, fun run hrun => (h.runs run hrun).keeps hk⟩
  obtain ⟨old, hold, hid, -⟩ := hk.mem r hr
  rw [← hid, hk.next_eq]
  exact h.id_lt old hold

theorem Tuned.put {run : Run} (h : fleet.Tuned) (hrun : run.Tuned fleet.hub) :
    (fleet.put run).Tuned := by
  refine ⟨h.id_lt, fun other hother => ?_⟩
  obtain ⟨old, hold, rfl⟩ := List.mem_map.1 hother
  split
  · exact hrun
  · exact h.runs old hold

theorem Tuned.advance {run : Run} (h : fleet.Tuned) (hrun : run.Tuned fleet.hub) (e : Event) :
    (({ fleet with hub := (Fleet.advance fleet.hub run e).2.1 } : Fleet).put
      (Fleet.advance fleet.hub run e).2.2).Tuned := by
  obtain ⟨hkeeps, htuned⟩ := hrun.advance e
  exact (h.of_keeps hkeeps).put htuned

/-- A new receiver has a number of its own. -/
theorem Tuned.subscribe (h : fleet.Tuned) (run : Run) {receiver : ReceiverId} {hub : Hub}
    (hs : fleet.hub.subscribe run.channel = .ok (receiver, hub)) (opened : Nat) :
    ({ fleet with hub, opened } : Fleet).Tuned ∧
      ({ run with receiver := some receiver } : Run).Tuned hub := by
  unfold Hub.subscribe at hs
  split at hs
  · cases hs
  · obtain ⟨rfl, rfl⟩ := Prod.mk.inj (Except.ok.inj hs)
    have hnew {id : ReceiverId} {r : Receiver}
        (hr : r ∈ fleet.hub.receivers ++ [⟨fleet.hub.next, run.channel, [], true⟩])
        (hid : r.id = id) :
        r ∈ fleet.hub.receivers ∨ id = fleet.hub.next ∧ r.channel = run.channel := by
      rcases List.mem_append.1 hr with hr | hr
      · exact .inl hr
      · obtain rfl := List.mem_singleton.1 hr
        exact .inr ⟨hid.symm, rfl⟩
    refine ⟨⟨fun r hr => ?_, fun other hother id hid => ?_⟩, fun id hid => ?_⟩
    · rcases hnew hr rfl with hold | ⟨hid, -⟩
      · exact Nat.lt_succ_of_lt (h.id_lt r hold)
      · exact Nat.lt_succ_of_le (Nat.le_of_eq hid)
    · obtain ⟨hlt, hchannel⟩ := h.runs other hother id hid
      refine ⟨Nat.lt_succ_of_lt hlt, fun r hr hr' => ?_⟩
      rcases hnew hr hr' with hold | ⟨rfl, -⟩
      · exact hchannel r hold hr'
      · exact absurd hlt (Nat.lt_irrefl _)
    · obtain rfl : fleet.hub.next = id := Option.some.inj hid
      refine ⟨Nat.lt_succ_self _, fun r hr hr' => ?_⟩
      rcases hnew hr hr' with hold | ⟨-, hchannel⟩
      · exact absurd (h.id_lt r hold) (hr' ▸ Nat.lt_irrefl _)
      · exact hchannel

theorem Tuned.perform (h : fleet.Tuned) (input : Input) : (fleet.perform input).2.Tuned := by
  cases input with
  | outside ops => exact h.of_keeps (fleet.hub.keeps_outsides ops)
  | event id e =>
    cases hrun : fleet.run? id with
    | none =>
      simp only [Fleet.perform, hrun]
      exact h
    | some run =>
      simp only [Fleet.perform, hrun]
      exact h.advance (h.runs run (mem_of_run? hrun)) e
  | attach id =>
    cases hrun : fleet.run? id with
    | none =>
      simp only [Fleet.perform, hrun]
      exact h
    | some run =>
      simp only [Fleet.perform, hrun, attach]
      split
      · split
        · exact h.advance (h.runs run (mem_of_run? hrun)) _
        · next receiver hub hs =>
          obtain ⟨hfleet, htuned⟩ := h.subscribe run hs (fleet.opened + 1)
          exact hfleet.advance htuned .attached
      · exact h

theorem Tuned.settle (h : fleet.Tuned) : fleet.settle.Tuned := by
  have hall (hub : Hub) (runs : List Run) (hruns : ∀ run ∈ runs, run.Tuned hub) :
      hub.Keeps (settleAll hub runs).1 ∧
        ∀ run ∈ (settleAll hub runs).2, run.Tuned (settleAll hub runs).1 := by
    induction runs generalizing hub with
    | nil => exact ⟨.refl hub, nofun⟩
    | cons run rest ih =>
      obtain ⟨hrun, hrest⟩ := List.forall_mem_cons.1 hruns
      obtain ⟨hkeeps, htuned⟩ := hrun.settleRun
      obtain ⟨hlater, hothers⟩ := ih _ fun other hother => (hrest other hother).keeps hkeeps
      exact ⟨hkeeps.trans hlater, List.forall_mem_cons.2 ⟨htuned.keeps hlater, hothers⟩⟩
  obtain ⟨hkeeps, hruns⟩ := hall fleet.hub fleet.runs h.runs
  exact ⟨(h.of_keeps hkeeps).id_lt, hruns⟩

/-- **Whoever holds a receiver listens on his own channel**, after any input. -/
theorem Tuned.step (h : fleet.Tuned) (input : Input) : (fleet.step input).2.Tuned :=
  (h.perform input).settle

/-! ## Courses -/

end Fleet

/-- The run is where some course of its ceremony leads to, on which a subscription is refused only
with errors of this kind. -/
def Run.OnCourse (allowed : Error → Prop) (run : Run) : Prop :=
  ∃ events, (∀ e, .attachFailed e ∈ events → allowed e) ∧
    (run.ceremony.run run.ceremony.start.1 events).1 = run.phase

namespace Run

variable {allowed : Error → Prop} {run next : Run}

/-- A course goes on. -/
theorem OnCourse.onward (h : run.OnCourse allowed) (events : List Event)
    (hevents : ∀ e, .attachFailed e ∈ events → allowed e) (hceremony : next.ceremony = run.ceremony)
    (hphase : next.phase = (run.ceremony.run run.phase events).1) : next.OnCourse allowed := by
  obtain ⟨before, hbefore, hrun⟩ := h
  refine ⟨before ++ events, fun e he => ?_, ?_⟩
  · rcases List.mem_append.1 he with he | he
    · exact hbefore e he
    · exact hevents e he
  · rw [hceremony, run_append, hrun, hphase]

theorem OnCourse.advance (h : run.OnCourse allowed) (hub : Hub) (receiver : Option ReceiverId)
    {e : Event} (he : ∀ fault, e = .attachFailed fault → allowed fault) :
    (Fleet.advance hub { run with receiver } e).2.2.OnCourse allowed := by
  obtain ⟨hphase, hceremony⟩ := release_phase_ceremony hub
    { run with receiver, phase := (run.ceremony.step run.phase e).1 }
    (run.ceremony.step run.phase e).2
  exact h.onward [e] (fun fault hfault => he fault (List.mem_singleton.1 hfault).symm) hceremony
    hphase

theorem OnCourse.settleRun (h : run.OnCourse allowed) (hub : Hub) :
    (Fleet.settleRun hub run).2.OnCourse allowed := by
  unfold Fleet.settleRun
  split
  · next receiver hp _ =>
    obtain ⟨payloads, ended, hub⟩ := hub.drain receiver
    refine h.onward (payloads.map .message ++ if ended then [.ended] else []) ?_
      (release_phase_ceremony ..).2 ((release_phase_ceremony ..).1.trans ?_)
    · intro e he
      cases ended <;> simp at he
    · rw [hp, run_append, run_messages]
      cases ended <;> rfl
  · exact h

end Run

namespace Fleet

variable {allowed : Error → Prop}

/-- All runs of the fleet are on course. -/
def OnCourse (allowed : Error → Prop) (fleet : Fleet) : Prop :=
  ∀ run ∈ fleet.runs, run.OnCourse allowed

/-- The input tells of no other refusals. -/
def Input.Allowed (allowed : Error → Prop) (input : Input) : Prop :=
  ∀ id e, input = .event id (.attachFailed e) → allowed e

theorem OnCourse.put {fleet : Fleet} (h : fleet.OnCourse allowed) {run : Run}
    (hrun : run.OnCourse allowed) (hub : Hub) (opened : Nat) :
    (Fleet.put { fleet with hub, opened } run).OnCourse allowed := by
  intro other hother
  obtain ⟨old, hold, rfl⟩ := List.mem_map.1 hother
  split
  · exact hrun
  · exact h old hold

theorem OnCourse.perform {fleet : Fleet} (h : fleet.OnCourse allowed) {input : Input}
    (hinput : input.Allowed allowed) : (fleet.perform input).2.OnCourse allowed := by
  cases input with
  | outside ops => exact h
  | event id e =>
    cases hrun : fleet.run? id with
    | none =>
      simp only [Fleet.perform, hrun]
      exact h
    | some run =>
      simp only [Fleet.perform, hrun]
      exact h.put ((h run (mem_of_run? hrun)).advance fleet.hub run.receiver fun fault hfault =>
        hinput id fault (by rw [hfault])) _ _
  | attach id =>
    cases hrun : fleet.run? id with
    | none =>
      simp only [Fleet.perform, hrun]
      exact h
    | some run =>
      simp only [Fleet.perform, hrun, attach]
      split
      · split
        · next e he =>
          obtain ⟨attached, hok⟩ := fleet.hub.exists_subscribe run.ceremony.channel.valid_name
          rw [hok] at he
          cases he
        · next receiver hub _ =>
          exact h.put ((h run (mem_of_run? hrun)).advance hub receiver fun _ h => by cases h) _ _
      · exact h

/-- **Every run stays on course**, whatever inputs tell of allowed refusals only. -/
theorem OnCourse.step {fleet : Fleet} (h : fleet.OnCourse allowed) {input : Input}
    (hinput : input.Allowed allowed) : (fleet.step input).2.OnCourse allowed := by
  have hall (hub : Hub) (runs : List Run) (hruns : ∀ run ∈ runs, run.OnCourse allowed) :
      ∀ run ∈ (settleAll hub runs).2, run.OnCourse allowed := by
    induction runs generalizing hub with
    | nil => exact hruns
    | cons run rest ih =>
      obtain ⟨hrun, hrest⟩ := List.forall_mem_cons.1 hruns
      exact List.forall_mem_cons.2 ⟨hrun.settleRun hub, ih _ hrest⟩
  exact hall _ _ (h.perform hinput)

end Fleet

end Custody
