import Custody.Proofs.Fleet.Following
import Custody.Proofs.Rehearsal.Course
import Custody.Proofs.Rehearsal.Publisher
import Mathlib.Logic.Relation
/-!
# A ceremony and the cluster that publishes for it

The trigger of a ceremony, its subscription, its wait and the publisher that its cluster has started
go on side by side, in any order, over a hub that others use as well (`Interplay.Next`). Time goes
on only when none of them has anything to do, as on a clock that nobody has to wait for.

Whatever the order is, the publisher finds the ceremony's subscription at its first look or at its
second (`Interplay.Airs`), before it gives up and before the ceremony's deadline, and then loses
nothing of its script (`Interplay.Attends`). So the ceremony ends with the first result of the
script (`Interplay.Good.outcome_eq`).
-/

namespace Custody

open Ceremony

namespace Rehearsal

/-- What a ceremony through a scripted cluster is given. Times are in nanoseconds. -/
structure Terms where
  config : Config
  call : Call
  /-- What its trigger sends. -/
  request : ActionRequest
  /-- What the cluster publishes for the trigger, if it has a script for it. -/
  script : Option (List String)
  /-- How long the cluster waits for a subscriber. -/
  patience : Nat
  /-- When the ceremony starts. -/
  start : Nat

namespace Terms

/-- The time between two looks of the cluster. -/
def period : Nat :=
  10 * Config.milli

def ceremony (T : Terms) : Ceremony :=
  T.call.ceremony T.config

/-- The name of the ceremony's channel. -/
def channel (T : Terms) : String :=
  T.call.channel.name

/-- When the ceremony has run out of time. -/
def deadline (T : Terms) : Nat :=
  T.start + T.config.timeout

/-- The payloads of the script. -/
def payloads (T : Terms) : List String :=
  T.script.getD []

/-- What the cluster does about the trigger. -/
def response? (T : Terms) : Option Response :=
  T.script.map (⟨·, false, period, some T.patience⟩)

/-- The cluster as it begins to look for a subscriber at the start of the ceremony. -/
def responder (T : Terms) : Responder :=
  ⟨T.channel, ⟨T.payloads, false, period, some T.patience⟩, T.start⟩

/-- Of what the cluster has been sent, that which is about the ceremony's channel. -/
def own (T : Terms) (requests : List ActionRequest) : List ActionRequest :=
  requests.filter (channelOf · == T.channel)

/-- The trigger is the ceremony's, its script fits into a receiver, and there is time for two looks
of the cluster. -/
structure Fit (T : Terms) : Prop where
  trigger : channelOf T.request = T.channel
  length_le : T.payloads.length ≤ 64
  patience : period < T.patience
  timeout : period < T.config.timeout

end Terms

/-! ## What can happen -/

/-- A ceremony and its cluster over a hub, at a moment. -/
structure Interplay where
  now : Nat
  hub : Hub
  /-- The ceremony's run. -/
  run : Run
  /-- What the cluster has started for the trigger. -/
  publisher : Option Publisher
  /-- What the cluster has been sent. -/
  requests : List ActionRequest
  /-- What the ceremony has asked for and nobody has done yet. -/
  asked : List Effect
  /-- The trigger has reached the cluster and has not been acknowledged. -/
  answering : Bool

namespace Interplay

/-- The ceremony when it starts. -/
def start (T : Terms) (hub : Hub) (id : Nat) (requests : List ActionRequest) : Interplay where
  now := T.start
  hub := hub
  run := ⟨id, T.ceremony, T.ceremony.start.1, none⟩
  publisher := none
  requests := requests
  asked := T.ceremony.start.2
  answering := false

/-- Something happens to the ceremony, which may ask for something then. -/
def tell (s : Interplay) (input : Fleet.Input) : Interplay :=
  let (effects, hub, run) := s.run.meet s.hub input
  { s with hub, run, asked := s.asked ++ effects.filter (· ≠ .release) }

/-- What the ceremony and its cluster do. -/
inductive Move
  /-- The trigger reaches the cluster, which starts a publisher if it has a script. -/
  | notify
  | acknowledge
  | attach
  /-- The ceremony reads one payload. -/
  | look
  | deadline
  /-- It is the publisher's turn. -/
  | publish

/-- What comes of a move, if it is possible now. -/
def move? (T : Terms) (s : Interplay) : Move → Option Interplay
  | .notify =>
    if .notify ∈ s.asked then
      some { s with
        asked := s.asked.erase .notify
        answering := true
        requests := s.requests ++ [T.request]
        publisher := T.response?.map fun response =>
          (Responder.mk (channelOf T.request) response s.now).publisher }
    else none
  | .acknowledge =>
    if s.answering then
      some ({ s with answering := false }.tell (.event s.run.id .acknowledged))
    else none
  | .attach =>
    if .subscribe ∈ s.asked then
      some ({ s with asked := s.asked.erase .subscribe }.tell (.attach s.run.id))
    else none
  | .look =>
    match s.run.phase with
    | .waiting =>
      if s.run.kept s.hub = [] then none
      else some { s with hub := (s.run.look s.hub).1, run := (s.run.look s.hub).2 }
    | _ => none
  | .deadline =>
    if T.deadline ≤ s.now ∧ s.run.phase.outcome?.isNone then
      some (s.tell (.event s.run.id .deadline))
    else none
  | .publish =>
    s.publisher.bind fun p => (p.turn? s.now s.hub).map fun (op, p) =>
      { s with hub := s.hub.after op, publisher := some p }

/-- What can happen next: others do something with the hub that has nothing to do with the ceremony,
or send triggers for other channels; the ceremony or its cluster makes a move; time goes on, when
neither can. -/
inductive Next (T : Terms) (s : Interplay) : Interplay → Prop
  | others {op : Hub.Operation} (h : s.run.Ignores s.hub op) :
    Next T s { s with hub := (s.hub.apply op).2 }
  | request {request : ActionRequest} (h : channelOf request ≠ T.channel) :
    Next T s { s with requests := s.requests ++ [request] }
  | move {m : Move} {t : Interplay} (h : s.move? T m = some t) : Next T s t
  | tick (h : ∀ m, s.move? T m = none) : Next T s { s with now := s.now + 1 }

/-! ## How far a ceremony and its cluster are -/

/-- The ceremony has opened its subscription, or is over. -/
def HasOpened (s : Interplay) : Prop :=
  s.run.phase.isAttached = true ∨ s.run.phase.outcome?.isSome = true

/-- The ceremony has not sent its trigger. -/
inductive Asks (s : Interplay) : Prop
  | subscription (hp : s.run.phase = .subscribing) (hasked : s.asked = [.subscribe])
  | triggerFirst (hp : s.run.phase = .triggering false) (hasked : s.asked = [.notify])
  | triggerNext (hf : s.run.Follows s.hub false []) (hasked : s.asked = [.notify])

/-- `s.Attends T aired`: the trigger has reached the cluster, which has published these payloads for
it, and the ceremony has lost none of them. -/
inductive Attends (T : Terms) (s : Interplay) : List String → Prop
  | unanswered (hp : s.run.phase = .triggering false) (hasked : s.asked = [])
    (hanswering : s.answering = true) (hnow : s.now = T.start) : Attends T s []
  | asking (hp : s.run.phase = .attaching) (hasked : s.asked = [.subscribe])
    (hanswering : s.answering = false) (hnow : s.now = T.start) : Attends T s []
  | early {aired : List String} (hf : s.run.Follows s.hub false aired) (hasked : s.asked = [])
    (hanswering : s.answering = true) (hnow : s.now = T.start) : Attends T s aired
  | attending {aired : List String} (hf : s.run.Follows s.hub true aired) (hasked : s.asked = [])
    (hanswering : s.answering = false) : Attends T s aired
  /-- The deadline has come after all payloads, and has ended the wait. -/
  | elapsed (hp : s.run.phase = .finished (.returned (T.call.channel.verdict T.payloads)))
    (hasked : s.asked = []) (hanswering : s.answering = false) (hnow : T.deadline ≤ s.now) :
    Attends T s T.payloads

/-- `s.Airs T aired`: the cluster has published these payloads for the trigger. It has found
somebody at its first look or will do so at its second, and is about the rest of its script
since. -/
inductive Airs (T : Terms) (s : Interplay) : List String → Prop
  | nothing (hp : s.publisher = none) (hnone : T.payloads = []) : Airs T s []
  | first (hp : s.publisher = some ⟨T.responder, .looking T.start⟩) (hnow : s.now = T.start) :
    Airs T s []
  | second (hp : s.publisher = some ⟨T.responder, .looking (T.start + Terms.period)⟩)
    (hnow : s.now ≤ T.start + Terms.period) : Airs T s []
  | publishing {aired rest : List String} (hp : s.publisher = some ⟨T.responder, .publishing rest⟩)
    (hsplit : aired ++ rest = T.payloads) (hopened : s.HasOpened)
    (hnow : s.now ≤ T.start + Terms.period) : Airs T s aired
  | finished (hp : s.publisher = some ⟨T.responder, .finished⟩) : Airs T s T.payloads

/-- Where a ceremony and its cluster are. -/
inductive Progress (T : Terms) (s : Interplay) : Prop
  | before (hasks : s.Asks) (hp : s.publisher = none) (hanswering : s.answering = false)
    (hnow : s.now = T.start) (hown : T.own s.requests = [])
  | after {aired : List String} (hattends : s.Attends T aired) (hairs : s.Airs T aired)
    (hown : T.own s.requests = [T.request])

/-- Only the ceremony listens on its channel. It is in time, and reads what it is given before time
goes on. -/
structure Sane (T : Terms) (s : Interplay) : Prop where
  counted : (Scene.mk s.hub s.run).Counted T.channel 0
  ceremony : s.run.ceremony = T.ceremony
  room : 64 ≤ s.hub.capacity
  inTime : s.now ≤ T.deadline ∨ s.run.phase.outcome?.isSome = true
  caughtUp : T.start + Terms.period < s.now → s.run.kept s.hub = []

/-- A ceremony and its cluster are where they should be. -/
structure Good (T : Terms) (s : Interplay) : Prop where
  sane : s.Sane T
  progress : s.Progress T

variable {T : Terms} {s t : Interplay} {aired : List String}

/-! ## The trigger -/

theorem Attends.notify_not_mem (h : s.Attends T aired) : .notify ∉ s.asked := by
  cases h <;> simp_all

/-- The cluster begins to look when the trigger comes. -/
theorem publisher_eq (hT : T.Fit) (hnow : s.now = T.start) :
    T.response?.map (fun response =>
        (Responder.mk (channelOf T.request) response s.now).publisher) =
      T.script.map fun _ => T.responder.publisher := by
  rw [hnow, hT.trigger, Terms.response?, Option.map_map]
  cases hs : T.script with
  | none => rfl
  | some payloads =>
    have hpayloads : T.payloads = payloads := by rw [Terms.payloads, hs]; rfl
    simp [Terms.responder, hpayloads]

theorem Good.notify (hT : T.Fit) (h : s.Good T) (hm : s.move? T .notify = some t) : t.Good T := by
  simp only [move?, Option.ite_none_right_eq_some, Option.some.injEq] at hm
  obtain ⟨hmem, rfl⟩ := hm
  obtain ⟨⟨hcounted, hceremony, hroom, hin, hcaught⟩, hprogress⟩ := h
  refine ⟨⟨hcounted, hceremony, hroom, hin, hcaught⟩, ?_⟩
  cases hprogress with
  | after hattends => exact absurd hmem hattends.notify_not_mem
  | before hasks hp hanswering hnow hown =>
    have hattends : Attends T { s with
        asked := s.asked.erase .notify
        answering := true
        requests := s.requests ++ [T.request]
        publisher := T.response?.map fun response =>
          (Responder.mk (channelOf T.request) response s.now).publisher } [] := by
      cases hasks with
      | subscription _ hasked => simp [hasked] at hmem
      | triggerFirst hp hasked => exact .unanswered hp (by simp [hasked]) rfl hnow
      | triggerNext hf hasked => exact .early hf (by simp [hasked]) rfl hnow
    refine .after hattends ?_ ?_
    · have hpublisher := publisher_eq hT hnow
      cases hs : T.script with
      | none =>
        rw [hs] at hpublisher
        exact .nothing hpublisher (by rw [Terms.payloads, hs]; rfl)
      | some payloads =>
        rw [hs] at hpublisher
        exact .first hpublisher hnow
    · have htrigger : T.own [T.request] = [T.request] := by simp [Terms.own, hT.trigger]
      have hsplit : T.own (s.requests ++ [T.request]) = T.own s.requests ++ T.own [T.request] :=
        List.filter_append ..
      rw [hsplit, hown, htrigger, List.nil_append]

/-! ## Turns of the ceremony -/

/-- A turn of the ceremony keeps the others off its channel. -/
theorem Sane.take (h : s.Sane T) (turn : Turn) :
    (Scene.mk (s.run.take s.hub turn).1 (s.run.take s.hub turn).2).Counted T.channel 0 ∧
      (s.run.take s.hub turn).2.ceremony = T.ceremony ∧
      64 ≤ (s.run.take s.hub turn).1.capacity := by
  have htook := Run.took_take h.counted.sound h.counted.bound turn
  exact ⟨h.counted.took htook, (s.run.take_id_ceremony s.hub turn).2.trans h.ceremony,
    htook.capacity_eq.symm ▸ h.room⟩

/-- What the cluster is about does not depend on the turns of the ceremony, which does not give its
subscription up but in its end. -/
theorem Airs.of_publisher_eq (h : s.Airs T aired) (hpublisher : t.publisher = s.publisher)
    (hnow : t.now = s.now) (hopened : s.HasOpened → t.HasOpened) : t.Airs T aired := by
  cases h with
  | nothing hp hnone => exact .nothing (hpublisher.trans hp) hnone
  | first hp hn => exact .first (hpublisher.trans hp) (hnow.trans hn)
  | second hp hn => exact .second (hpublisher.trans hp) (hnow.symm ▸ hn)
  | publishing hp hsplit ho hn =>
    exact .publishing (hpublisher.trans hp) hsplit (hopened ho) (hnow.symm ▸ hn)
  | finished hp => exact .finished (hpublisher.trans hp)

/-- At the moment of its start a ceremony is in time and has not been left behind. -/
theorem Sane.of_start (hcounted : (Scene.mk s.hub s.run).Counted T.channel 0)
    (hceremony : s.run.ceremony = T.ceremony) (hroom : 64 ≤ s.hub.capacity)
    (hnow : s.now = T.start) : s.Sane T where
  counted := hcounted
  ceremony := hceremony
  room := hroom
  inTime := .inl (hnow ▸ Nat.le_add_right ..)
  caughtUp hlt := absurd hlt (by omega)

theorem Good.acknowledge (h : s.Good T) (hm : s.move? T .acknowledge = some t) : t.Good T := by
  simp only [move?, Option.ite_none_right_eq_some, Option.some.injEq] at hm
  obtain ⟨hanswering, rfl⟩ := hm
  obtain ⟨hsane, hprogress⟩ := h
  have hmeet := s.run.snd_meet_signal s.hub .acknowledged
  obtain ⟨hcounted, hceremony, hroom⟩ := hsane.take (.signal .acknowledged)
  rw [← hmeet] at hcounted hceremony hroom
  obtain ⟨heffects, hphase⟩ := Setup.meet_event s.hub s.run .acknowledged
  cases hprogress with
  | before hasks hp hno => simp [hno] at hanswering
  | @after aired hattends hairs hown =>
    cases hattends with
    | unanswered hp hasked _ hnow =>
      rw [hp, Move.acknowledgedLate.step_eq] at heffects hphase
      refine ⟨.of_start hcounted hceremony hroom hnow, .after (.asking hphase ?_ rfl hnow)
        (hairs.of_publisher_eq rfl rfl ?_) hown⟩
      · simp [tell, heffects, hasked]
      · simp [HasOpened, hp, Phase.isAttached, Phase.outcome?]
    | early hf hasked _ hnow =>
      have hf' : (s.run.meet s.hub (.event s.run.id .acknowledged)).2.2.Follows
          (s.run.meet s.hub (.event s.run.id .acknowledged)).2.1 true aired :=
        hmeet.symm ▸ hf.acknowledge
      rw [hf.phase_eq, Move.acknowledgedEarly.step_eq] at heffects
      refine ⟨.of_start hcounted hceremony hroom hnow, .after (.attending hf' ?_ rfl)
        (hairs.of_publisher_eq rfl rfl fun _ => hf'.isAttached) hown⟩
      simp [tell, heffects, hasked]
    | asking _ _ hno => simp [hno] at hanswering
    | attending _ _ hno => simp [hno] at hanswering
    | elapsed _ _ hno => simp [hno] at hanswering

theorem Good.attach (h : s.Good T) (hm : s.move? T .attach = some t) : t.Good T := by
  simp only [move?, Option.ite_none_right_eq_some, Option.some.injEq] at hm
  obtain ⟨hmem, rfl⟩ := hm
  obtain ⟨hsane, hprogress⟩ := h
  obtain ⟨hcounted, hceremony, hroom⟩ := hsane.take .attach
  rw [← s.run.snd_meet_attach s.hub] at hcounted hceremony hroom
  cases hprogress with
  | before hasks hp hanswering hnow hown =>
    cases hasks with
    | subscription hp' hasked =>
      obtain ⟨heffects, hf⟩ :=
        Run.meet_attach_follows hsane.counted.sound false hp'
      exact ⟨.of_start hcounted hceremony hroom hnow,
        .before (.triggerNext hf (by simp [tell, heffects, hasked])) hp hanswering hnow hown⟩
    | triggerFirst _ hasked => simp [hasked] at hmem
    | triggerNext _ hasked => simp [hasked] at hmem
  | @after aired hattends hairs hown =>
    cases hattends with
    | asking hp hasked hanswering hnow =>
      obtain ⟨heffects, hf⟩ :=
        Run.meet_attach_follows hsane.counted.sound true hp
      exact ⟨.of_start hcounted hceremony hroom hnow,
        .after (.attending hf (by simp [tell, heffects, hasked]) hanswering)
          (hairs.of_publisher_eq rfl rfl fun _ => hf.isAttached) hown⟩
    | unanswered _ hasked => simp [hasked] at hmem
    | early _ hasked => simp [hasked] at hmem
    | attending _ hasked => simp [hasked] at hmem
    | elapsed _ hasked => simp [hasked] at hmem

theorem move?_look (hm : s.move? T .look = some t) :
    s.run.phase = .waiting ∧ s.run.kept s.hub ≠ [] ∧
      { s with hub := (s.run.look s.hub).1, run := (s.run.look s.hub).2 } = t := by
  simp only [move?] at hm
  split at hm
  · next hp =>
    obtain ⟨hkept, ht⟩ := Option.ite_none_left_eq_some.1 hm
    exact ⟨hp, hkept, Option.some.inj ht⟩
  · cases hm

/-- A ceremony that waits for a result has its trigger acknowledged and follows its channel. -/
theorem Good.of_waiting (h : s.Good T) (hp : s.run.phase = .waiting) :
    ∃ aired, s.run.Follows s.hub true aired ∧ s.asked = [] ∧ s.answering = false ∧
      s.Airs T aired ∧ T.own s.requests = [T.request] := by
  cases h.progress with
  | before hasks =>
    cases hasks with
    | subscription hp' => simp [hp'] at hp
    | triggerFirst hp' => simp [hp'] at hp
    | triggerNext hf => simp [hf.phase_eq] at hp
  | @after aired hattends hairs hown =>
    cases hattends with
    | attending hf hasked hanswering => exact ⟨aired, hf, hasked, hanswering, hairs, hown⟩
    | unanswered hp' => simp [hp'] at hp
    | asking hp' => simp [hp'] at hp
    | early hf => simp [hf.phase_eq] at hp
    | elapsed hp' => simp [hp'] at hp

theorem Good.look (h : s.Good T) (hm : s.move? T .look = some t) : t.Good T := by
  obtain ⟨hp, hkept, rfl⟩ := move?_look hm
  obtain ⟨aired, hf, hasked, hanswering, hairs, hown⟩ := h.of_waiting hp
  have hsane := h.sane
  have hf' := hf.look hsane.counted.sound
  obtain ⟨hcounted, hceremony, hroom⟩ := hsane.take .look
  have hsane' : Sane T { s with hub := (s.run.look s.hub).1, run := (s.run.look s.hub).2 } := {
    counted := hcounted
    ceremony := hceremony
    room := hroom
    inTime := hsane.inTime.imp_right fun hover => by simp [hp, Phase.outcome?] at hover
    caughtUp := fun hlt => absurd (hsane.caughtUp hlt) hkept }
  exact ⟨hsane', .after (.attending hf' hasked hanswering)
    (hairs.of_publisher_eq rfl rfl fun _ => hf'.isAttached) hown⟩

/-- Nothing is left to be published when the deadline comes. -/
theorem Airs.eq_of_late (h : s.Airs T aired) (hlt : T.start + Terms.period < s.now) :
    aired = T.payloads := by
  cases h with
  | nothing _ hnone => exact hnone.symm
  | first _ hnow => omega
  | second _ hnow => omega
  | publishing _ _ _ hnow => omega
  | finished => rfl

/-- A ceremony whose deadline has come and that is not over waits for a result. -/
theorem Good.waiting_of_late (h : s.Good T) (hlt : T.start < s.now)
    (hgoes : s.run.phase.outcome? = none) : s.run.phase = .waiting := by
  cases h.progress with
  | before _ _ _ hnow => omega
  | after hattends =>
    cases hattends with
    | unanswered _ _ _ hnow => omega
    | asking _ _ _ hnow => omega
    | early _ _ _ hnow => omega
    | attending hf => exact hf.waits_or_over.resolve_right (by simp [hgoes])
    | elapsed hp => simp [hp, Phase.outcome?] at hgoes

theorem move?_deadline (hT : T.Fit) (hm : s.move? T .deadline = some t) :
    T.deadline ≤ s.now ∧ T.start + Terms.period < s.now ∧ s.run.phase.outcome? = none ∧
      t = s.tell (.event s.run.id .deadline) := by
  simp only [move?, Option.ite_none_right_eq_some, Option.some.injEq] at hm
  obtain ⟨⟨hlate, hgoes⟩, rfl⟩ := hm
  have htimeout := hT.timeout
  simp only [Terms.deadline] at hlate
  exact ⟨hlate, by omega, by simpa using hgoes, rfl⟩

theorem Good.deadline (hT : T.Fit) (h : s.Good T) (hm : s.move? T .deadline = some t) :
    t.Good T := by
  obtain ⟨hlate, hlt, hgoes, rfl⟩ := move?_deadline hT hm
  have hp := h.waiting_of_late (by omega) hgoes
  obtain ⟨aired, hf, hasked, hanswering, hairs, hown⟩ := h.of_waiting hp
  obtain rfl := hairs.eq_of_late hlt
  have hsane := h.sane
  have hmeet := s.run.snd_meet_signal s.hub .deadline
  obtain ⟨hcounted, hceremony, hroom⟩ := hsane.take (.signal .deadline)
  rw [← hmeet] at hcounted hceremony hroom
  have heffects := (Setup.meet_event s.hub s.run .deadline).1
  rw [hp, Move.waitElapsed.step_eq] at heffects
  have hover : (s.run.meet s.hub (.event s.run.id .deadline)).2.2.phase =
      .finished (.returned (T.call.channel.verdict T.payloads)) := by
    have hend := hf.advance_deadline (hsane.caughtUp hlt)
    rw [hsane.ceremony] at hend
    exact (congrArg (·.2.phase) hmeet).trans hend
  have hsome : (s.run.meet s.hub (.event s.run.id .deadline)).2.2.phase.outcome?.isSome = true := by
    rw [hover]
    rfl
  exact ⟨⟨hcounted, hceremony, hroom, .inr hsome,
    fun _ => hcounted.bound.kept_eq_nil (Phase.isAttached_of_outcome? hsome)⟩,
    .after (.elapsed hover (by simp [tell, heffects, hasked]) hanswering hlate)
      (hairs.of_publisher_eq rfl rfl fun _ => .inr hsome) hown⟩

/-! ## Turns of the publisher -/

/-- What the ceremony has does not change by what others do. -/
theorem Attends.of_run_eq (h : s.Attends T aired) (hrun : t.run = s.run)
    (hasked : t.asked = s.asked) (hanswering : t.answering = s.answering) (hnow : t.now = s.now)
    (hfollows : ∀ {acknowledged payloads}, s.run.Follows s.hub acknowledged payloads →
      s.run.Follows t.hub acknowledged payloads) : t.Attends T aired := by
  cases h with
  | unanswered hp ha hans hn =>
    exact .unanswered (hrun ▸ hp) (hasked.trans ha) (hanswering.trans hans) (hnow.trans hn)
  | asking hp ha hans hn =>
    exact .asking (hrun ▸ hp) (hasked.trans ha) (hanswering.trans hans) (hnow.trans hn)
  | early hf ha hans hn =>
    exact .early (hrun ▸ hfollows hf) (hasked.trans ha) (hanswering.trans hans) (hnow.trans hn)
  | attending hf ha hans =>
    exact .attending (hrun ▸ hfollows hf) (hasked.trans ha) (hanswering.trans hans)
  | elapsed hp ha hans hn =>
    exact .elapsed (hrun ▸ hp) (hasked.trans ha) (hanswering.trans hans) (hnow ▸ hn)

/-- Somebody listens exactly while the ceremony holds its subscription. -/
theorem Sane.count_eq_zero_iff (h : s.Sane T) :
    s.hub.subscriberCount T.channel = 0 ↔ s.run.phase.isAttached = false := by
  have hcount := h.counted.count_eq
  have hsome := h.counted.isSome_receiver
  simp only at hcount hsome
  rw [hcount, hsome]
  cases s.run.phase.isAttached <;> simp

/-- After the moment of its start the ceremony listens, as long as nothing has been published and
its deadline has not come. -/
theorem Attends.isAttached (h : s.Attends T []) (hlt : T.start < s.now) (hin : s.now < T.deadline) :
    s.run.phase.isAttached = true := by
  generalize haired : ([] : List String) = aired at h
  cases h with
  | unanswered _ _ _ hnow => omega
  | asking _ _ _ hnow => omega
  | early _ _ _ hnow => omega
  | elapsed _ _ _ hnow => omega
  | attending hf =>
    cases hf with
    | reading hp => rw [hp]; rfl
    | ended _ _ hfirst => simp [← haired] at hfirst

theorem period_responder (T : Terms) : T.responder.period = Terms.period := by
  show max 1 Terms.period = Terms.period
  decide

/-- What a publisher comes to that looks for the ceremony. -/
theorem Airs.of_looks (hT : T.Fit) (hsane : s.Sane T) (hattends : s.Attends T []) {time : Nat}
    (htime : time = T.start ∧ s.now = T.start ∨
      time = T.start + Terms.period ∧ s.now ≤ T.start + Terms.period) {next : Publisher}
    (hlooks : Publisher.Looks ⟨T.responder, .looking time⟩ s.now s.hub time next) :
    Airs T { s with publisher := some next } [] := by
  have hpatience := hT.patience
  have htimeout := hT.timeout
  have hnow : s.now ≤ T.start + Terms.period := by
    rcases htime with ⟨-, hnow⟩ | ⟨-, hnow⟩ <;> omega
  cases hlooks with
  | nobody hle hcount =>
    have hdetached := hsane.count_eq_zero_iff.1 hcount
    have hstart : s.now = T.start := by
      rcases htime with ⟨-, hnow⟩ | ⟨rfl, -⟩
      · exact hnow
      · have hpos : 0 < Terms.period := by decide
        have hattached := hattends.isAttached (by omega) (by simp only [Terms.deadline]; omega)
        rw [hdetached] at hattached
        cases hattached
    refine .second ?_ hnow
    rw [show s.now = T.start from hstart]
    simp only [period_responder]
  | somebody hle hcount =>
    have hattached : s.run.phase.isAttached = true := by
      rw [← Bool.not_eq_false]
      exact fun hno => hcount (hsane.count_eq_zero_iff.2 hno)
    exact .publishing rfl (List.nil_append _) (.inl hattached) hnow
  | givesUp hlt hout =>
    have hlimit : T.start + T.patience ≤ s.now := by
      simpa [Terms.responder, Responder.limit?] using hout
    omega

theorem Sane.apply (h : s.Sane T) (op : Hub.Operation) (hop : ¬ s.hub.Touches T.channel op) :
    (Scene.mk (s.hub.apply op).2 s.run).Counted T.channel 0 ∧ 64 ≤ (s.hub.apply op).2.capacity :=
  ⟨h.counted.outside hop, (s.hub.capacity_next_apply op).1.symm ▸ h.room⟩

/-- **A payload of the script reaches the ceremony.** -/
theorem Good.air (hT : T.Fit) (hsane : s.Sane T) (hattends : s.Attends T aired)
    (hopened : s.HasOpened) (hown : T.own s.requests = [T.request]) {payload : String}
    {rest : List String} (hsplit : aired ++ payload :: rest = T.payloads)
    (hnow : s.now ≤ T.start + Terms.period) :
    Good T { s with
      hub := (s.hub.apply (.publish T.channel payload)).2
      publisher := some ⟨T.responder, .publishing rest⟩ } := by
  obtain ⟨hcounted, hroom⟩ := hsane.apply (.publish T.channel payload) not_false
  have hlength := congrArg List.length hsplit
  rw [List.length_append, List.length_cons] at hlength
  have hfollows {acknowledged : Bool} (hf : s.run.Follows s.hub acknowledged aired) :
      s.run.Follows (s.hub.apply (.publish T.channel payload)).2 acknowledged
        (aired ++ [payload]) := by
    have hkept := hf.length_kept_le
    have hlimit := hT.length_le
    have hspace := hsane.room
    have hnext := hf.publish hsane.counted.sound hsane.counted.bound (by omega) payload
    rwa [show s.run.channel = T.channel from hsane.counted.channel_eq] at hnext
  have hattends' : Attends T { s with
      hub := (s.hub.apply (.publish T.channel payload)).2
      publisher := some ⟨T.responder, .publishing rest⟩ } (aired ++ [payload]) := by
    cases hattends with
    | unanswered hp => simp [HasOpened, hp, Phase.isAttached, Phase.outcome?] at hopened
    | asking hp => simp [HasOpened, hp, Phase.isAttached, Phase.outcome?] at hopened
    | early hf hasked hanswering hnow => exact .early (hfollows hf) hasked hanswering hnow
    | attending hf hasked hanswering => exact .attending (hfollows hf) hasked hanswering
    | elapsed => omega
  exact ⟨⟨hcounted, hsane.ceremony, hroom, hsane.inTime,
    fun hlt => absurd hlt (Nat.not_lt.2 hnow)⟩,
    .after hattends' (.publishing rfl (by rw [List.append_assoc]; exact hsplit) hopened hnow) hown⟩

theorem move?_publish (hm : s.move? T .publish = some t) :
    ∃ p op next, s.publisher = some p ∧ p.turn? s.now s.hub = some (op, next) ∧
      { s with hub := s.hub.after op, publisher := some next } = t := by
  simp only [move?, Option.bind_eq_some_iff, Option.map_eq_some_iff] at hm
  obtain ⟨p, hp, ⟨op, next⟩, hturn, ht⟩ := hm
  exact ⟨p, op, next, hp, hturn, ht⟩

/-- **The publisher** finds the ceremony now or a period later, and publishes one payload after the
other. -/
theorem Good.publish (hT : T.Fit) (h : s.Good T) (hm : s.move? T .publish = some t) :
    t.Good T := by
  obtain ⟨p, op, next, hpublisher, hturn, rfl⟩ := move?_publish hm
  obtain ⟨hsane, hprogress⟩ := h
  cases hprogress with
  | before _ hp => simp [hp] at hpublisher
  | @after aired hattends hairs hown =>
    have hlooks {time : Nat} (hattends : s.Attends T [])
        (htime : time = T.start ∧ s.now = T.start ∨
          time = T.start + Terms.period ∧ s.now ≤ T.start + Terms.period)
        (hp : p = ⟨T.responder, .looking time⟩) :
        Good T { s with hub := s.hub.after op, publisher := some next } := by
      subst hp
      obtain ⟨rfl, hlooks⟩ := Publisher.looks_of_turn? rfl hturn
      exact ⟨{ hsane with }, .after (hattends.of_run_eq rfl rfl rfl rfl id)
        (.of_looks hT hsane hattends htime hlooks) hown⟩
    cases hairs with
    | nothing hp => simp [hp] at hpublisher
    | finished hp =>
      obtain rfl := Option.some.inj (hp.symm.trans hpublisher)
      cases hturn
    | first hp hnow =>
      exact hlooks hattends (.inl ⟨rfl, hnow⟩) (Option.some.inj (hpublisher.symm.trans hp))
    | second hp hnow =>
      exact hlooks hattends (.inr ⟨rfl, hnow⟩) (Option.some.inj (hpublisher.symm.trans hp))
    | @publishing _ rest hp hsplit hopened hnow =>
      obtain rfl := Option.some.inj (hp.symm.trans hpublisher)
      cases rest with
      | nil =>
        obtain ⟨rfl, rfl⟩ : op = none ∧ next = ⟨T.responder, .finished⟩ := by
          simpa [Publisher.turn?, Terms.responder, eq_comm] using hturn
        rw [List.append_nil] at hsplit
        subst hsplit
        exact ⟨{ hsane with }, .after (hattends.of_run_eq rfl rfl rfl rfl id) (.finished rfl) hown⟩
      | cons payload rest =>
        obtain ⟨rfl, rfl⟩ : op = some (.publish T.channel payload) ∧
            next = ⟨T.responder, .publishing rest⟩ := by
          simpa [Publisher.turn?, Terms.responder, eq_comm] using hturn
        exact .air hT hsane hattends hopened hown hsplit hnow

/-! ## Others, and time -/

theorem Good.others (h : s.Good T) {op : Hub.Operation} (hop : s.run.Ignores s.hub op) :
    Good T { s with hub := (s.hub.apply op).2 } := by
  obtain ⟨hsane, hprogress⟩ := h
  have hchannel : s.run.channel = T.channel := hsane.counted.channel_eq
  have hsound := hsane.counted.sound
  have hbound := hsane.counted.bound
  obtain ⟨hcounted, hroom⟩ := hsane.apply op (hchannel ▸ hop.touches)
  refine ⟨{ hsane with
    counted := hcounted
    room := hroom
    caughtUp := fun hlt => (hop.kept_eq hsound hbound).trans (hsane.caughtUp hlt) }, ?_⟩
  cases hprogress with
  | before hasks hp hanswering hnow hown =>
    refine .before ?_ hp hanswering hnow hown
    cases hasks with
    | subscription hp hasked => exact .subscription hp hasked
    | triggerFirst hp hasked => exact .triggerFirst hp hasked
    | triggerNext hf hasked => exact .triggerNext (hf.ignores hop hsound hbound) hasked
  | after hattends hairs hown =>
    exact .after (hattends.of_run_eq rfl rfl rfl rfl fun hf => hf.ignores hop hsound hbound)
      (hairs.of_publisher_eq rfl rfl id) hown

theorem Good.request (h : s.Good T) {request : ActionRequest} (hr : channelOf request ≠ T.channel) :
    Good T { s with requests := s.requests ++ [request] } := by
  obtain ⟨hsane, hprogress⟩ := h
  have hown : T.own (s.requests ++ [request]) = T.own s.requests := by
    simp [Terms.own, List.filter_append, hr]
  refine ⟨{ hsane with }, ?_⟩
  cases hprogress with
  | before hasks hp hanswering hnow hno =>
    refine .before ?_ hp hanswering hnow (hown.trans hno)
    cases hasks with
    | subscription hp hasked => exact .subscription hp hasked
    | triggerFirst hp hasked => exact .triggerFirst hp hasked
    | triggerNext hf hasked => exact .triggerNext hf hasked
  | after hattends hairs hone =>
    exact .after (hattends.of_run_eq rfl rfl rfl rfl id) (hairs.of_publisher_eq rfl rfl id)
      (hown.trans hone)

/-- A publisher that has nothing to do now sleeps up to its second look, or has done its work. -/
theorem Airs.tick (h : s.Airs T aired)
    (hidle : ∀ p ∈ s.publisher, p.turn? s.now s.hub = none) :
    Airs T { s with now := s.now + 1 } aired := by
  cases h with
  | nothing hp hnone => exact .nothing hp hnone
  | finished hp => exact .finished hp
  | first hp hnow =>
    have hlt := ((Publisher.turn?_eq_none_iff rfl).1 (hidle _ hp)).1
    omega
  | second hp hnow =>
    exact .second hp ((Publisher.turn?_eq_none_iff rfl).1 (hidle _ hp)).1
  | @publishing _ rest hp => cases rest <;> cases hidle _ hp

/-- **Time goes on** when the ceremony waits with nothing to read, or is over, and the publisher
sleeps or has nothing left to do. -/
theorem Good.tick (h : s.Good T) (hidle : ∀ m, s.move? T m = none) :
    Good T { s with now := s.now + 1 } := by
  obtain ⟨hsane, hprogress⟩ := h
  have hnotify : .notify ∉ s.asked := by simpa [move?] using hidle .notify
  have hsubscribe : .subscribe ∉ s.asked := by simpa [move?] using hidle .attach
  have hanswered : s.answering = false := by simpa [move?] using hidle .acknowledge
  have hpublish : ∀ p ∈ s.publisher, p.turn? s.now s.hub = none := by
    simpa [move?] using hidle .publish
  have hintime : s.now + 1 ≤ T.deadline ∨ s.run.phase.outcome?.isSome = true := by
    have hdeadline := hidle .deadline
    simp only [move?, ite_eq_right_iff, reduceCtorEq, imp_false, not_and] at hdeadline
    cases hover : s.run.phase.outcome? with
    | none => exact .inl (Nat.lt_of_not_le fun hle => hdeadline hle (by rw [hover]; rfl))
    | some outcome => exact .inr rfl
  -- the ceremony has been answered and listens, or is over
  have hread : s.run.phase = .waiting ∨ s.run.phase.outcome?.isSome = true →
      s.run.kept s.hub = [] := by
    rintro (hp | hover)
    · have hlook := hidle .look
      simpa [move?, hp] using hlook
    · exact hsane.counted.bound.kept_eq_nil (Phase.isAttached_of_outcome? hover)
  cases hprogress with
  | before hasks =>
    cases hasks with
    | subscription _ hasked => simp [hasked] at hsubscribe
    | triggerFirst _ hasked => simp [hasked] at hnotify
    | triggerNext _ hasked => simp [hasked] at hnotify
  | @after aired hattends hairs hown =>
    have hairs' := hairs.tick hpublish
    cases hattends with
    | unanswered _ _ hanswering => simp [hanswering] at hanswered
    | early _ _ hanswering => simp [hanswering] at hanswered
    | asking _ hasked => simp [hasked] at hsubscribe
    | attending hf hasked hanswering =>
      exact ⟨⟨hsane.counted, hsane.ceremony, hsane.room, hintime,
        fun _ => hread hf.waits_or_over⟩, .after (.attending hf hasked hanswering) hairs' hown⟩
    | elapsed hp hasked hanswering hnow =>
      exact ⟨⟨hsane.counted, hsane.ceremony, hsane.room, hintime,
        fun _ => hread (.inr (by rw [hp]; rfl))⟩,
        .after (.elapsed hp hasked hanswering (Nat.le_succ_of_le hnow)) hairs' hown⟩

/-- **Whatever happens next**, a ceremony and its cluster stay where they should be. -/
theorem Good.next (hT : T.Fit) (h : s.Good T) (hn : s.Next T t) : t.Good T := by
  cases hn with
  | others hop => exact h.others hop
  | request hr => exact h.request hr
  | tick hidle => exact h.tick hidle
  | @move m _ hm =>
    cases m with
    | notify => exact h.notify hT hm
    | acknowledge => exact h.acknowledge hm
    | attach => exact h.attach hm
    | look => exact h.look hm
    | deadline => exact h.deadline hT hm
    | publish => exact h.publish hT hm

/-- **What comes of a ceremony and its cluster** stays where it should be. -/
theorem Good.reaches (hT : T.Fit) (h : s.Good T) (hreach : Relation.ReflTransGen (Next T) s t) :
    t.Good T := by
  induction hreach with
  | refl => exact h
  | tail _ hn ih => exact ih.next hT hn

/-! ## From start to end -/

theorem good_start {hub : Hub} (hs : hub.Sound) (hroom : 64 ≤ hub.capacity)
    (hnobody : hub.subscriberCount T.channel = 0) {requests : List ActionRequest}
    (hown : T.own requests = []) (id : Nat) : (start T hub id requests).Good T := by
  have hcounted := Scene.counted_start hs id T.ceremony
  have hasks : (start T hub id requests).Asks := by
    cases hfirst : T.config.subscribeFirst with
    | true =>
      have hstart : T.ceremony.start = (.subscribing, [.subscribe]) :=
        Call.start_of_subscribeFirst hfirst
      exact .subscription (congrArg Prod.fst hstart) (congrArg Prod.snd hstart)
    | false =>
      have hstart : T.ceremony.start = (.triggering false, [.notify]) :=
        Call.start_of_triggerFirst hfirst
      exact .triggerFirst (congrArg Prod.fst hstart) (congrArg Prod.snd hstart)
  have hcounted' : (Scene.mk hub ⟨id, T.ceremony, T.ceremony.start.1, none⟩).Counted T.channel 0 :=
    hnobody ▸ hcounted
  exact ⟨.of_start hcounted' rfl hroom rfl, .before hasks rfl rfl rfl hown⟩

/-- What has been published is the beginning of the script. -/
theorem Airs.exists_append_eq (h : s.Airs T aired) : ∃ rest, aired ++ rest = T.payloads := by
  cases h with
  | nothing _ hnone => exact ⟨[], hnone.symm⟩
  | first => exact ⟨T.payloads, rfl⟩
  | second => exact ⟨T.payloads, rfl⟩
  | @publishing _ rest _ hsplit => exact ⟨rest, hsplit⟩
  | finished => exact ⟨[], List.append_nil _⟩

/-- **How a ceremony ends** is the verdict on the whole script. -/
theorem Good.outcome_eq (h : s.Good T) {outcome : Outcome} (hp : s.run.phase = .finished outcome) :
    outcome = .returned (T.call.channel.verdict T.payloads) ∧ T.own s.requests = [T.request] := by
  cases h.progress with
  | before hasks =>
    cases hasks with
    | subscription hp' => simp [hp'] at hp
    | triggerFirst hp' => simp [hp'] at hp
    | triggerNext hf => simp [hf.phase_eq] at hp
  | @after aired hattends hairs hown =>
    refine ⟨?_, hown⟩
    cases hattends with
    | unanswered hp' => simp [hp'] at hp
    | asking hp' => simp [hp'] at hp
    | early hf => simp [hf.phase_eq] at hp
    | elapsed hp' => exact (Phase.finished.inj (hp'.symm.trans hp)).symm
    | attending hf =>
      cases hf with
      | reading hp' => simp [hp'] at hp
      | @ended _ result hp' _ hfirst =>
        obtain ⟨rest, hsplit⟩ := hairs.exists_append_eq
        rw [show s.run.ceremony.channel = T.call.channel from
          congrArg Ceremony.channel h.sane.ceremony] at hfirst
        have hverdict : T.call.channel.verdict T.payloads = .ok result := by
          rw [ChannelKey.verdict, ← hsplit, List.findSome?_append, hfirst, Option.some_or]
        rw [hverdict]
        exact (Phase.finished.inj (hp'.symm.trans hp)).symm

end Interplay

end Rehearsal

end Custody
