import Custody.Rehearsal.Play
import Custody.Proofs.Fleet.Calm
import Custody.Proofs.Rehearsal.Agenda
import Custody.Proofs.Session.Id
/-!
# The course of a call in time

A call asks for two things one after the other, a trigger and a subscription, and then waits. What
it asks for is answered after a delay, if at all, and all of it has one deadline. `Setup.Stage` says
where a call is and which answer is still to come; `Setup.Ending` lists all ways in which it ends,
with their times. An answer that comes in time leads to the next stage or to an end
(`Setup.Stage.answered`), and the deadline to an end (`Setup.Stage.elapsed`).
-/

namespace Custody.Rehearsal

open Ceremony

/-- After what time a broker opens a subscription, if it does. -/
def Broker.opensIn? (broker : Broker) : Option Nat :=
  match broker.attachment with
  | .granted => broker.delay
  | .astray => broker.delay
  | .refused _ => none

/-- After what time a cluster acknowledges a trigger, if it does. -/
def Cluster.acknowledgesIn? (cluster : Cluster) : Option Nat :=
  match cluster.failure with
  | none => cluster.delay
  | some _ => none

theorem Broker.mem_opensIn? {broker : Broker} {d : Nat} :
    d ∈ broker.opensIn? ↔ d ∈ broker.delay ∧ ∀ e, broker.attachment ≠ .refused e := by
  unfold opensIn?
  cases broker.attachment <;> simp

theorem Cluster.mem_acknowledgesIn? {cluster : Cluster} {d : Nat} :
    d ∈ cluster.acknowledgesIn? ↔ d ∈ cluster.delay ∧ cluster.failure = none := by
  unfold acknowledgesIn?
  cases cluster.failure <;> simp

/-- A call, and those it has to do with. -/
structure Setup where
  cluster : Cluster
  broker : Broker
  config : Config
  call : Call
  request : ActionRequest
  /-- The number of its task. -/
  id : Nat
  /-- The time of its start. -/
  start : Nat

namespace Setup

/-- The time that the call has, in milliseconds. -/
def timeout (S : Setup) : Nat :=
  S.config.timeout / Config.milli

/-- The moment at which the call has run out of time. -/
def deadline (S : Setup) : Nat :=
  S.start + S.timeout

def ceremony (S : Setup) : Ceremony :=
  S.call.ceremony S.config

/-- After what time from its start the call sends its trigger, if it does. -/
def sentAfter? (S : Setup) : Option Nat :=
  if S.config.subscribeFirst then S.broker.opensIn? else some 0

/-- After what time from its start the call asks for its subscription, if it does. -/
def askedAfter? (S : Setup) : Option Nat :=
  if S.config.subscribeFirst then some 0 else S.cluster.acknowledgesIn?

/-- If the call opens its subscription at all, it has done so by that moment. -/
def IsHearing (S : Setup) (time : Nat) : Prop :=
  ∀ a ∈ S.askedAfter?, ∀ d ∈ S.broker.opensIn?, S.start + a + d ≤ time

/-- The trigger is acknowledged in time. -/
def IsAcknowledged (S : Setup) : Prop :=
  ∃ s ∈ S.sentAfter?, ∃ d ∈ S.cluster.acknowledgesIn?, s + d ≤ S.timeout

/-- The subscription is open in time. -/
def IsOpen (S : Setup) : Prop :=
  ∃ a ∈ S.askedAfter?, ∃ d ∈ S.broker.opensIn?, a + d ≤ S.timeout

/-- `S.Stage phase pending`: the call is in this phase, and this answer is still to come. -/
inductive Stage (S : Setup) : Phase → List Item → Prop
  /-- The trigger has been sent. -/
  | triggering {s : Nat} (hs : s ∈ S.sentAfter?) (hle : s ≤ S.timeout) :
    Stage S (.triggering S.config.subscribeFirst)
      (answerItem (S.start + s) S.cluster.delay (S.cluster.reply S.id))
  /-- The subscription has been asked for. -/
  | asking {a : Nat} (ha : a ∈ S.askedAfter?) (hle : a ≤ S.timeout) :
    Stage S (if S.config.subscribeFirst then .subscribing else .attaching)
      (answerItem (S.start + a) S.broker.delay (S.broker.reply S.id))
  | waiting (hack : S.IsAcknowledged) (hopen : S.IsOpen) : Stage S .waiting []

/-- `S.Ending loud result elapsed`: how the call can end, and how long after its start. Before the
moment `loud` it ends neither by a payload nor by the end of its stream. -/
inductive Ending (S : Setup) (loud : Nat) : Except Error CeremonyResult → Nat → Prop
  | triggerElapsed {s : Nat} (hs : s ∈ S.sentAfter?) (hle : s ≤ S.timeout)
    (hlate : ∀ d ∈ S.cluster.delay, S.timeout < s + d) :
    Ending S loud (.error (S.ceremony.triggerError "deadline elapsed")) S.timeout
  | triggerRefused {s d : Nat} {e : Error} (hs : s ∈ S.sentAfter?) (hd : d ∈ S.cluster.delay)
    (hf : S.cluster.failure = some e) (hle : s + d ≤ S.timeout) :
    Ending S loud (.error (S.ceremony.triggerError e.message)) (s + d)
  | subscribeElapsed {a : Nat} (ha : a ∈ S.askedAfter?) (hle : a ≤ S.timeout)
    (hlate : ∀ d ∈ S.broker.delay, S.timeout < a + d) :
    Ending S loud (.error S.ceremony.subscribeError) S.timeout
  | subscribeRefused {a d : Nat} {e : Error} (ha : a ∈ S.askedAfter?) (hd : d ∈ S.broker.delay)
    (hf : S.broker.attachment = .refused e) (hle : a + d ≤ S.timeout) :
    Ending S loud (.error e) (a + d)
  | waitElapsed (hack : S.IsAcknowledged) (hopen : S.IsOpen) :
    Ending S loud (.error (.timeout S.ceremony.channel.name)) S.timeout
  | read {result : Except Error CeremonyResult} {elapsed : Nat} (hack : S.IsAcknowledged)
    (hopen : S.IsOpen) (hle : elapsed ≤ S.timeout) (hloud : loud ≤ S.start + elapsed)
    (hresult : (∃ r, result = .ok r) ∨ result = .error (.channelClosed S.ceremony.channel.name)) :
    Ending S loud result elapsed

/-- The item happens to the run of the call. -/
def owns (S : Setup) (x : Item) : Bool :=
  match x.2 with
  | .launch _ => false
  | .input input => input.isFor S.id

/-- What an effect of the call plans at a time. -/
def planned (S : Setup) (now : Nat) : Effect → List Item
  | .notify =>
    answerItem now S.cluster.delay (S.cluster.reply S.id) ++ S.cluster.frames S.request now
  | .subscribe => answerItem now S.broker.delay (S.broker.reply S.id)
  | .release => []

/-- The responders that an effect of the call leaves behind. -/
def waiters (S : Setup) (now : Nat) : Effect → List Responder
  | .notify =>
    ((S.cluster.response S.request).map (Responder.mk (channelOf S.request) · now)).toList
  | .subscribe => []
  | .release => []

/-- `S.Course loud time run effects`: an answer has led to this run at a time, with these
effects. -/
inductive Course (S : Setup) (loud time : Nat) (run : Run) (effects : List Effect) : Prop
  /-- The call goes on. -/
  | goes {pending : List Item} (hstage : S.Stage run.phase pending)
    (hown : (effects.flatMap (S.planned time)).filter S.owns = pending)
    (hsent : .notify ∈ effects → ∃ s ∈ S.sentAfter?, time = S.start + s)
  | ends {result : Except Error CeremonyResult}
    (hp : run.phase = .finished (.returned result))
    (hending : S.Ending loud result (time - S.start))

/-! ## What an input makes of a run -/

section Meeting

variable {hub : Hub} {run : Run}

theorem advance_eq_step (hub : Hub) (run : Run) (e : Event) :
    (Fleet.advance hub run e).1 = (run.ceremony.step run.phase e).2 ∧
      (Fleet.advance hub run e).2.2.phase = (run.ceremony.step run.phase e).1 :=
  ⟨rfl, (Run.release_phase_ceremony ..).1⟩

theorem meet_event (hub : Hub) (run : Run) (e : Event) :
    (run.meet hub (.event run.id e)).1 = (run.ceremony.step run.phase e).2 ∧
      (run.meet hub (.event run.id e)).2.2.phase = (run.ceremony.step run.phase e).1 := by
  simp only [Run.meet, if_true]
  exact advance_eq_step ..

/-- A subscription that is asked for is opened, whatever the state of the hub. -/
theorem meet_attach (hub : Hub) (hp : run.phase.awaitsAttachment = true) :
    (run.meet hub (.attach run.id)).1 = (run.ceremony.step run.phase .attached).2 ∧
      (run.meet hub (.attach run.id)).2.2.phase = (run.ceremony.step run.phase .attached).1 := by
  obtain ⟨after, hsub⟩ := hub.exists_subscribe run.ceremony.channel.valid_name
  have hsub' : hub.subscribe run.channel = .ok (hub.next, after) := hsub
  simp only [Run.meet, hp, and_self, if_true, hsub']
  exact advance_eq_step after { run with receiver := some hub.next } .attached

/-- The broker's reply, as the event that it is for the run. -/
def brokerEvent (S : Setup) : Event :=
  match S.broker.attachment with
  | .granted => .attached
  | .astray => .attached
  | .refused e => .attachFailed e

theorem meet_brokerReply {S : Setup} (hub : Hub) (hid : run.id = S.id)
    (hp : run.phase.awaitsAttachment = true) :
    (run.meet hub (S.broker.reply S.id)).1 = (run.ceremony.step run.phase S.brokerEvent).2 ∧
      (run.meet hub (S.broker.reply S.id)).2.2.phase =
        (run.ceremony.step run.phase S.brokerEvent).1 := by
  rw [← hid, Broker.reply, brokerEvent]
  cases S.broker.attachment with
  | granted => exact meet_attach hub hp
  | astray => exact meet_event ..
  | refused e => exact meet_event ..

end Meeting

/-! ## Answers and the deadline -/

variable {S : Setup} {loud : Nat} {run : Run} {pending : List Item} {time : Nat}

theorem mem_answerItem {now : Nat} {delay : Option Nat} {input : Fleet.Input} {x : Item} :
    x ∈ answerItem now delay input ↔ ∃ d ∈ delay, x = (now + d, .input input) := by
  cases delay with
  | none => simp [answerItem]
  | some d => simp [answerItem]

theorem owns_clusterReply (S : Setup) (time : Nat) :
    S.owns (time, .input (S.cluster.reply S.id)) = true := by
  simp [owns, Cluster.reply, Fleet.Input.isFor]

theorem owns_brokerReply (S : Setup) (time : Nat) :
    S.owns (time, .input (S.broker.reply S.id)) = true := by
  simp only [owns, Broker.reply]
  cases S.broker.attachment <;> simp [Fleet.Input.isFor]

theorem filter_planned_notify (S : Setup) (now : Nat) :
    (S.planned now .notify).filter S.owns =
      answerItem now S.cluster.delay (S.cluster.reply S.id) := by
  have hframes : (S.cluster.frames S.request now).filter S.owns = [] := by
    rw [List.filter_eq_nil_iff]
    intro x hx
    obtain ⟨burst, -, rfl⟩ := List.mem_map.1 hx
    simp [owns, Fleet.Input.isFor]
  rw [planned, List.filter_append, hframes, List.append_nil, List.filter_eq_self]
  intro x hx
  obtain ⟨d, -, rfl⟩ := mem_answerItem.1 hx
  exact S.owns_clusterReply _

theorem filter_planned_subscribe (S : Setup) (now : Nat) :
    (S.planned now .subscribe).filter S.owns =
      answerItem now S.broker.delay (S.broker.reply S.id) := by
  rw [planned, List.filter_eq_self]
  intro x hx
  obtain ⟨d, -, rfl⟩ := mem_answerItem.1 hx
  exact S.owns_brokerReply _

theorem Stage.outcome? {phase : Phase} (h : S.Stage phase pending) : phase.outcome? = none := by
  cases h with
  | triggering => rfl
  | asking => cases S.config.subscribeFirst <;> rfl
  | waiting => rfl

theorem Stage.of_waiting {phase : Phase} (h : S.Stage phase pending) (hp : phase = .waiting) :
    S.IsAcknowledged ∧ S.IsOpen := by
  cases h with
  | triggering => cases hp
  | asking =>
    split at hp
    · cases hp
    · cases hp
  | waiting hack hopen => exact ⟨hack, hopen⟩

/-- An answer that is still to come is the only one, and no deadline. -/
theorem Stage.eq_of_mem {phase : Phase} {x : Item} (h : S.Stage phase pending) (hx : x ∈ pending) :
    pending = [x] ∧ x.2.isDeadline = false := by
  cases h with
  | triggering =>
    obtain ⟨d, hd, rfl⟩ := mem_answerItem.1 hx
    refine ⟨by rw [answerItem, Option.mem_def.1 hd]; rfl, ?_⟩
    unfold Cluster.reply
    cases S.cluster.failure <;> rfl
  | asking =>
    obtain ⟨d, hd, rfl⟩ := mem_answerItem.1 hx
    refine ⟨by rw [answerItem, Option.mem_def.1 hd]; rfl, ?_⟩
    unfold Broker.reply
    cases S.broker.attachment <;> rfl
  | waiting => cases hx

/-- **The deadline ends a call**, if what it waits for comes later. -/
theorem Stage.elapsed (h : S.Stage run.phase pending) (hid : run.id = S.id)
    (hc : run.ceremony = S.ceremony) (hlate : ∀ x ∈ pending, S.deadline < x.1) (hub : Hub)
    (loud : Nat) :
    ∃ result, (run.meet hub (.event S.id .deadline)).2.2.phase = .finished (.returned result) ∧
      S.Ending loud result S.timeout := by
  obtain ⟨-, hphase⟩ := meet_event hub run .deadline
  have hlater {now : Nat} {delay : Option Nat} {input : Fleet.Input}
      (hlate : ∀ x ∈ answerItem (S.start + now) delay input, S.deadline < x.1) :
      ∀ d ∈ delay, S.timeout < now + d := by
    intro d hd
    have := hlate _ (mem_answerItem.2 ⟨d, hd, rfl⟩)
    simp only [deadline] at this
    omega
  rw [hid, hc] at hphase
  generalize run.phase = phase at h hphase
  cases h with
  | triggering hs hle =>
    rw [(Move.triggerElapsed _).step_eq] at hphase
    exact ⟨_, hphase, .triggerElapsed hs hle (hlater hlate)⟩
  | asking ha hle =>
    have hstep : S.ceremony.step (if S.config.subscribeFirst then .subscribing else .attaching)
        .deadline = (fail S.ceremony.subscribeError, []) := by
      cases S.config.subscribeFirst <;> rfl
    rw [hstep] at hphase
    exact ⟨_, hphase, .subscribeElapsed ha hle (hlater hlate)⟩
  | waiting hack hopen =>
    rw [Move.waitElapsed.step_eq] at hphase
    exact ⟨_, hphase, .waitElapsed hack hopen⟩

theorem brokerEvent_of_opened (h : ∀ e, S.broker.attachment ≠ .refused e) :
    S.brokerEvent = .attached := by
  unfold brokerEvent
  cases hb : S.broker.attachment with
  | granted => rfl
  | astray => rfl
  | refused e => exact absurd hb (h e)

/-- The control plane's answer. -/
theorem Course.of_clusterReply {s d : Nat} (hs : s ∈ S.sentAfter?) (hd : d ∈ S.cluster.delay)
    (hle : s + d ≤ S.timeout) (hid : run.id = S.id) (hc : run.ceremony = S.ceremony)
    (hp : run.phase = .triggering S.config.subscribeFirst) (hub : Hub) :
    S.Course loud (S.start + s + d) (run.meet hub (S.cluster.reply S.id)).2.2
      (run.meet hub (S.cluster.reply S.id)).1 := by
  have htime : S.start + s + d - S.start = s + d := by omega
  cases hf : S.cluster.failure with
  | some e =>
    have hreply : S.cluster.reply S.id = .event run.id (.refused e) := by
      rw [Cluster.reply, hf, hid]
    obtain ⟨-, hphase⟩ := meet_event hub run (.refused e)
    rw [hc, hp, (Move.refused _ e).step_eq] at hphase
    rw [hreply]
    exact .ends hphase (htime ▸ .triggerRefused hs hd hf hle)
  | none =>
    have hreply : S.cluster.reply S.id = .event run.id .acknowledged := by
      rw [Cluster.reply, hf, hid]
    have hd' : d ∈ S.cluster.acknowledgesIn? := Cluster.mem_acknowledgesIn?.2 ⟨hd, hf⟩
    obtain ⟨heffects, hphase⟩ := meet_event hub run .acknowledged
    rw [hc, hp] at heffects hphase
    rw [hreply, heffects]
    have hack : S.IsAcknowledged := ⟨s, hs, d, hd', hle⟩
    cases hfirst : S.config.subscribeFirst with
    | true =>
      rw [hfirst, Move.acknowledgedEarly.step_eq] at hphase
      rw [Move.acknowledgedEarly.step_eq]
      simp only [sentAfter?, hfirst, if_true] at hs
      have hopen : S.IsOpen :=
        ⟨0, by simp [askedAfter?, hfirst], s, hs, by omega⟩
      exact .goes (hphase ▸ .waiting hack hopen) rfl nofun
    | false =>
      rw [hfirst, Move.acknowledgedLate.step_eq] at hphase
      rw [Move.acknowledgedLate.step_eq]
      obtain rfl : s = 0 := by simpa [sentAfter?, hfirst, eq_comm] using hs
      have hasked : d ∈ S.askedAfter? := by simpa [askedAfter?, hfirst] using hd'
      have hstage := Stage.asking hasked (by omega)
      rw [hfirst, if_neg Bool.false_ne_true] at hstage
      refine .goes (by rw [hphase]; exact hstage) ?_ (by simp)
      simpa using S.filter_planned_subscribe (S.start + 0 + d)

theorem isHearing_of_answered {a d : Nat} (ha : a ∈ S.askedAfter?) (hd : d ∈ S.broker.delay) :
    S.IsHearing (S.start + a + d) := by
  intro a' ha' d' hd'
  obtain rfl := Option.mem_unique ha' ha
  obtain rfl := Option.mem_unique (Broker.mem_opensIn?.1 hd').1 hd
  exact Nat.le_refl _

/-- The broker's answer. -/
theorem Course.of_brokerReply {a d : Nat} (ha : a ∈ S.askedAfter?) (hd : d ∈ S.broker.delay)
    (hle : a + d ≤ S.timeout) (hid : run.id = S.id) (hc : run.ceremony = S.ceremony)
    (hp : run.phase = if S.config.subscribeFirst then .subscribing else .attaching) (hub : Hub) :
    S.Course loud (S.start + a + d) (run.meet hub (S.broker.reply S.id)).2.2
      (run.meet hub (S.broker.reply S.id)).1 := by
  have htime : S.start + a + d - S.start = a + d := by omega
  have hawaits : run.phase.awaitsAttachment = true := by
    rw [hp]
    cases S.config.subscribeFirst <;> rfl
  obtain ⟨heffects, hphase⟩ := meet_brokerReply hub hid hawaits
  rw [hc] at heffects hphase
  rw [heffects]
  by_cases hb : ∃ e, S.broker.attachment = .refused e
  · obtain ⟨e, hb⟩ := hb
    have hevent : S.brokerEvent = .attachFailed e := by rw [brokerEvent, hb]
    rw [hevent, (Move.attachFailed hawaits e).step_eq] at hphase
    exact .ends hphase (htime ▸ .subscribeRefused ha hd hb hle)
  · have hopened : ∀ e, S.broker.attachment ≠ .refused e := fun e he => hb ⟨e, he⟩
    rw [brokerEvent_of_opened hopened, hp] at hphase
    rw [brokerEvent_of_opened hopened, hp]
    have hd' : d ∈ S.broker.opensIn? := Broker.mem_opensIn?.2 ⟨hd, hopened⟩
    cases hfirst : S.config.subscribeFirst with
    | true =>
      rw [hfirst, if_pos rfl, Move.attachedEarly.step_eq] at hphase
      rw [if_pos rfl, Move.attachedEarly.step_eq]
      obtain rfl : a = 0 := by simpa [askedAfter?, hfirst, eq_comm] using ha
      have hsent : d ∈ S.sentAfter? := by simpa [sentAfter?, hfirst] using hd'
      have hstage := Stage.triggering hsent (by omega)
      rw [hfirst] at hstage
      refine .goes (by rw [hphase]; exact hstage) ?_ fun _ => ⟨d, hsent, by omega⟩
      simpa using S.filter_planned_notify (S.start + 0 + d)
    | false =>
      rw [hfirst, if_neg Bool.false_ne_true, Move.attachedLate.step_eq] at hphase
      rw [if_neg Bool.false_ne_true, Move.attachedLate.step_eq]
      have hack : S.IsAcknowledged :=
        ⟨0, by simp [sentAfter?, hfirst], a, by simpa [askedAfter?, hfirst] using ha, by omega⟩
      exact .goes (hphase ▸ .waiting hack ⟨a, ha, d, hd', hle⟩) rfl nofun

/-- **An answer in time** leads to the next stage or to an end. -/
theorem Stage.answered (h : S.Stage run.phase pending) (hid : run.id = S.id)
    (hc : run.ceremony = S.ceremony) {input : Fleet.Input} (hmem : (time, .input input) ∈ pending)
    (hle : time ≤ S.deadline) (hub : Hub) (loud : Nat) :
    input.outsides = [] ∧ (input = .attach S.id → S.IsHearing time) ∧
      S.Course loud time (run.meet hub input).2.2 (run.meet hub input).1 := by
  generalize hp : run.phase = phase at h
  cases h with
  | waiting hack hopen => cases hmem
  | triggering hs _ =>
    obtain ⟨d, hd, hx⟩ := mem_answerItem.1 hmem
    obtain ⟨rfl, hinput⟩ := Prod.mk.inj hx
    obtain rfl := Occurrence.input.inj hinput
    simp only [deadline] at hle
    refine ⟨rfl, fun he => ?_, .of_clusterReply hs hd (by omega) hid hc hp hub⟩
    cases he
  | asking ha _ =>
    obtain ⟨d, hd, hx⟩ := mem_answerItem.1 hmem
    obtain ⟨rfl, hinput⟩ := Prod.mk.inj hx
    obtain rfl := Occurrence.input.inj hinput
    simp only [deadline] at hle
    refine ⟨?_, fun _ => isHearing_of_answered ha hd,
      .of_brokerReply ha hd (by omega) hid hc hp hub⟩
    unfold Broker.reply
    cases S.broker.attachment <;> rfl

end Setup

end Custody.Rehearsal
