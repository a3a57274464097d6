import Custody.Proofs.Rehearsal.Deadline
import Custody.Proofs.Rehearsal.Strides
import Custody.Proofs.Rehearsal.Triggers
/-!
# Where a rehearsal of a scripted cluster is

A call that is played against a scripted cluster and its broker (`Setup.IsOn`) stands at each moment
where its ceremony and the cluster's publisher do (`Mirrors`). What happens to the call in a
rehearsal is a move, or a few of them, after which the ceremony has read what there is
(`Tracks.happen`).
-/

namespace Custody

open Ceremony

namespace Rehearsal

/-! ## What a rehearsal does -/

/-- What an effect of a call sends to the cluster. -/
def Setup.sends (S : Setup) : Effect → List ActionRequest
  | .notify => [S.request]
  | .subscribe | .release => []

namespace World

variable {w : World}

/-- Who begins to look now finds at once that somebody listens. -/
theorem due?_of_start {r : Responder} (hnow : w.now = r.start)
    (hcount : w.fleet.hub.subscriberCount r.channel ≠ 0) : w.due? r = some r.start := by
  have hperiod : max 1 r.response.period - 1 < max 1 r.response.period := by omega
  simp [due?, hcount, hnow, Nat.div_eq_of_lt hperiod]

theorem requests_serve {S : Setup}
    (htask : (w.tasks.find? (·.id == S.id)).bind Task.request = some S.request)
    (effects : List Effect) :
    ((effects.map (S.id, ·)).foldl serve w).requests =
      w.requests ++ effects.flatMap S.sends := by
  induction effects generalizing w with
  | nil => exact (List.append_nil _).symm
  | cons effect rest ih =>
    have hserved : (w.serve (S.id, effect)).tasks = w.tasks ∧
        (w.serve (S.id, effect)).requests = w.requests ++ S.sends effect := by
      cases effect with
      | notify =>
        simp only [serve, htask]
        exact ⟨by rw [(w.plans_notify S.id S.request).eq], requests_notify ..⟩
      | subscribe =>
        have hplans := w.plans_subscribe S.id
        refine ⟨by rw [hplans.eq], ?_⟩
        simp only [serve, answer]
        split
        · exact (List.append_nil _).symm
        · exact (requests_after ..).trans (List.append_nil _).symm
      | release => exact ⟨rfl, (List.append_nil _).symm⟩
    rw [List.map_cons, List.foldl_cons, ih (hserved.1.symm ▸ htask), hserved.2,
      List.flatMap_cons, List.append_assoc]

end World

/-- What the call asks for is sent to the cluster. -/
theorem Live.requests_happen {S : Setup} {loud : Nat} {w : World} {run : Run}
    (h : Live S loud w run) (input : Fleet.Input) :
    (w.happen (.input input)).requests =
      w.requests ++ (run.meet w.fleet.hub input).1.flatMap S.sends := by
  obtain ⟨heffects, -, -⟩ := h.lone.step input
  let stepped : World := { w with
    fleet := (w.fleet.step input).2, log := w.log ++ (w.fleet.step input).1.answers }
  have hserved := World.requests_serve (w := stepped) h.task (run.meet w.fleet.hub input).1
  rw [← h.id, ← heffects] at hserved
  exact hserved

/-- The call is played on these terms: its cluster has the script, and its broker opens every
subscription at once. -/
structure Setup.IsOn (S : Setup) (T : Terms) : Prop where
  config : T.config = S.config
  call : T.call = S.call
  request : T.request = S.request
  start : T.start = S.start * Config.milli
  cluster : ∃ payloads, S.cluster = .responding none (T.patience / Config.milli) payloads ∧
    payloads S.request = T.script
  broker : S.broker = .prompt
  fit : T.Fit

namespace Setup.IsOn

variable {S : Setup} {T : Terms} (h : S.IsOn T)

include h

theorem ceremony : T.ceremony = S.ceremony := by
  rw [Terms.ceremony, h.call, h.config]
  rfl

theorem response : S.cluster.response S.request =
    T.script.map (⟨·, false, 10, some (T.patience / Config.milli)⟩) := by
  obtain ⟨payloads, hcluster, hscript⟩ := h.cluster
  rw [hcluster, ← hscript]
  rfl

/-- What waits for a subscriber once the trigger has reached the cluster. -/
theorem waiters_notify (now : Nat) : S.waiters now .notify =
    (T.script.map fun script =>
      Responder.mk T.channel ⟨script, false, 10, some (T.patience / Config.milli)⟩ now).toList := by
  have hchannel : channelOf S.request = T.channel := h.request ▸ h.fit.trigger
  rw [Setup.waiters, h.response, hchannel, Option.map_map]
  rfl

/-- What the call asks for is sent for its channel. -/
theorem own_sends (effects : List Effect) :
    T.own (effects.flatMap S.sends) = effects.flatMap S.sends := by
  refine List.filter_eq_self.2 fun request hmem => ?_
  obtain ⟨effect, -, hmem⟩ := List.mem_flatMap.1 hmem
  cases effect with
  | notify =>
    obtain rfl := List.mem_singleton.1 hmem
    rw [← h.request]
    simpa using h.fit.trigger
  | subscribe | release => cases hmem

/-- The deadline of the rehearsal does not come late. -/
theorem deadline_le : S.deadline * Config.milli ≤ T.deadline := by
  rw [Setup.deadline, Terms.deadline, h.start, h.config, Nat.add_mul]
  exact Nat.add_le_add_left (Nat.div_mul_le_self ..) _

theorem start_lt : S.start < S.deadline := by
  have htimeout : 10 * Config.milli < S.config.timeout := h.config ▸ h.fit.timeout
  have hpos : 0 < S.config.timeout / Config.milli :=
    Nat.div_pos (by omega) (by decide)
  exact Nat.lt_add_of_pos_right hpos

/-- Both answers come at once. -/
theorem stage_cases {phase : Phase} {pending : List Item} (hs : S.Stage phase pending) :
    (phase = .triggering S.config.subscribeFirst ∧
      pending = [(S.start, .input (.event S.id .acknowledged))]) ∨
    (phase = (if S.config.subscribeFirst then .subscribing else .attaching) ∧
      pending = [(S.start, .input (.attach S.id))]) ∨
    (phase = .waiting ∧ pending = []) := by
  obtain ⟨payloads, hcluster, -⟩ := h.cluster
  have hopens : S.broker.opensIn? = some 0 := by rw [h.broker]; rfl
  have hacks : S.cluster.acknowledgesIn? = some 0 := by rw [hcluster]; rfl
  cases hs with
  | @triggering s hsent =>
    have hzero : S.sentAfter? = some 0 := by rw [sentAfter?, hopens, ite_self]
    obtain rfl := Option.some.inj (hzero.symm.trans hsent)
    rw [hcluster]
    exact .inl ⟨rfl, rfl⟩
  | @asking a hasked =>
    have hzero : S.askedAfter? = some 0 := by rw [askedAfter?, hacks, ite_self]
    obtain rfl := Option.some.inj (hzero.symm.trans hasked)
    rw [h.broker]
    exact .inr (.inl ⟨rfl, rfl⟩)
  | waiting => exact .inr (.inr ⟨rfl, rfl⟩)

end Setup.IsOn

/-- What is still open between a ceremony in a phase and its cluster, when the trigger goes out as
soon as it is asked for. -/
def Interplay.Stands (s : Interplay) : Phase → Prop
  | .subscribing => s.asked = [.subscribe] ∧ s.publisher = none
  | .triggering _ => s.asked = [] ∧ s.answering = true
  | .attaching => s.asked = [.subscribe]
  | .waiting => s.asked = [] ∧ s.answering = false
  | .opening | .finished _ => True

/-- Others do nothing on a channel when this happens. -/
def Occurrence.IsElsewhere (channel : String) (o : Occurrence) : Prop :=
  ∀ input, o = .input input → ∀ op ∈ input.outsides, op.IsElsewhere channel

theorem Occurrence.IsElsewhere.append {channel : String} {ops more : List Outside}
    (hops : (Occurrence.input (.outside ops)).IsElsewhere channel)
    (hmore : (Occurrence.input (.outside more)).IsElsewhere channel) :
    (Occurrence.input (.outside (ops ++ more))).IsElsewhere channel := by
  rintro _ ⟨⟩ op hop
  rcases List.mem_append.1 hop with hop | hop
  · exact hops _ rfl op hop
  · exact hmore _ rfl op hop

/-- `Keeps S T now responders publisher`: of those that wait for a subscriber, this is the publisher
of the call, if it is there. -/
inductive Keeps (S : Setup) (T : Terms) (now : Nat) (responders : List Responder) :
    Option Publisher → Prop
  /-- The publisher has not looked yet. -/
  | looks {script : List String} (hscript : T.script = some script) (hnow : now = S.start)
    (hown : responders.filter (·.channel = T.channel) =
      [⟨T.channel, ⟨script, false, 10, some (T.patience / Config.milli)⟩, S.start⟩]) :
    Keeps S T now responders (some T.responder.publisher)
  /-- There is no publisher, or it has done its work. -/
  | idle {publisher : Option Publisher} (hover : ∀ p ∈ publisher, p.errand = .finished)
    (hown : responders.filter (·.channel = T.channel) = []) : Keeps S T now responders publisher

namespace Keeps

variable {S : Setup} {T : Terms} {now : Nat} {responders : List Responder}
  {publisher : Option Publisher}

/-- The trigger has just reached the cluster. -/
theorem notified (hon : S.IsOn T) (hnow : now = S.start)
    (hown : responders.filter (·.channel = T.channel) = []) :
    Keeps S T now (responders ++ S.waiters S.start .notify)
      (T.script.map fun _ => T.responder.publisher) := by
  rw [hon.waiters_notify]
  cases hscript : T.script with
  | none => exact .idle nofun (by simpa using hown)
  | some script => exact .looks hscript hnow (by simp [List.filter_append, hown])

/-- Later than at the start there is nothing left to publish. -/
theorem over_of_ne (h : Keeps S T now responders publisher) (hne : now ≠ S.start) :
    (∀ p ∈ publisher, p.errand = .finished) ∧
      responders.filter (·.channel = T.channel) = [] := by
  cases h with
  | looks _ hnow => exact absurd hnow hne
  | idle hover hown => exact ⟨hover, hown⟩

/-- A responder to another channel does not matter. -/
theorem of_others (h : Keeps S T now responders publisher) {r : Responder}
    {others : List Responder} (hperm : (r :: others).Perm responders)
    (hr : r.channel ≠ T.channel) : Keeps S T now others publisher := by
  have hown := hperm.filter (fun r => decide (r.channel = T.channel))
  rw [List.filter_cons_of_neg (by simpa using hr)] at hown
  cases h with
  | idle hover hnone =>
    rw [hnone] at hown
    exact .idle hover hown.eq_nil
  | looks hscript hnow hone =>
    rw [hone, List.perm_singleton] at hown
    exact .looks hscript hnow hown

end Keeps

/-- `Tracks S T before w s`: a rehearsal in which a call goes on, or has ended, has come as far as a
ceremony has. -/
structure Tracks (S : Setup) (T : Terms) (before : List ActionRequest) (w : World)
    (s : Interplay) : Prop where
  good : s.Good T
  id : s.run.id = S.id
  lone : w.fleet.Lone s.run
  hub : s.hub = w.fleet.hub
  now : s.run.phase.outcome? = none → s.now = w.now * Config.milli
  requests : w.requests = before ++ s.requests
  own : T.own s.requests = s.requests
  notified : .notify ∉ s.asked
  read : s.run.phase = .waiting → s.run.kept s.hub = []
  elsewhere : ∀ x ∈ w.agenda, x.2.IsElsewhere T.channel

/-- `Mirrors S T before w s`: it stands where the ceremony and its cluster do. -/
structure Mirrors (S : Setup) (T : Terms) (before : List ActionRequest) (w : World)
    (s : Interplay) : Prop extends Tracks S T before w s where
  keeps : Keeps S T w.now w.responders s.publisher

/-- `LeadsTo S T before s w`: the rehearsal stands where the ceremony and its cluster can come to
from here. -/
def LeadsTo (S : Setup) (T : Terms) (before : List ActionRequest) (s : Interplay) (w : World) :
    Prop :=
  ∃ u, Relation.ReflTransGen (Interplay.Next T) s u ∧ Mirrors S T before w u

variable {S : Setup} {T : Terms} {before : List ActionRequest} {w : World} {s : Interplay}

theorem Mirrors.leadsTo (h : Mirrors S T before w s) : LeadsTo S T before s w :=
  ⟨s, .refl, h⟩

theorem LeadsTo.of_reaches {t : Interplay} (h : LeadsTo S T before t w)
    (hreach : Relation.ReflTransGen (Interplay.Next T) s t) : LeadsTo S T before s w := by
  obtain ⟨u, hreach', hu⟩ := h
  exact ⟨u, hreach.trans hreach', hu⟩

namespace Tracks

theorem stands (h : Tracks S T before w s) : s.Stands s.run.phase := by
  have hnotified := h.notified
  cases h.good.progress with
  | before hasks hnone =>
    cases hasks with
    | subscription hp hasked =>
      rw [hp]
      exact ⟨hasked, hnone⟩
    | triggerFirst _ hasked => simp [hasked] at hnotified
    | triggerNext _ hasked => simp [hasked] at hnotified
  | after hattends =>
    cases hattends with
    | unanswered hp hasked hanswering =>
      rw [hp]
      exact ⟨hasked, hanswering⟩
    | early hf hasked hanswering =>
      rw [hf.phase_eq]
      exact ⟨hasked, hanswering⟩
    | asking hp hasked =>
      rw [hp]
      exact hasked
    | attending hf hasked hanswering =>
      cases hf with
      | reading hp =>
        rw [hp]
        exact ⟨hasked, hanswering⟩
      | ended hp => rw [hp]; trivial
    | elapsed hp => rw [hp]; trivial

/-- **Time goes on in a rehearsal** when nothing is to be done any more. -/
theorem pass (h : Tracks S T before w s) (hon : S.IsOn T) {time : Nat} (hle : w.now ≤ time)
    (hgoes : s.run.phase.outcome? = none)
    (hidle : w.now < time → s.run.phase = .waiting ∧ ∀ p ∈ s.publisher, p.errand = .finished)
    (hin : time ≤ S.deadline) :
    Relation.ReflTransGen (Interplay.Next T) s { s with now := time * Config.milli } ∧
      Tracks S T before { w with now := time } { s with now := time * Config.milli } := by
  have hnow := h.now hgoes
  have hreach : Relation.ReflTransGen (Interplay.Next T) s
      { s with now := time * Config.milli } := by
    rcases Nat.eq_or_lt_of_le hle with rfl | hlt
    · rw [← hnow]
    · obtain ⟨hp, hover⟩ := hidle hlt
      obtain ⟨hasked, hanswering⟩ : s.Stands .waiting := hp ▸ h.stands
      have hsum : time * Config.milli = s.now + (time * Config.milli - s.now) := by
        rw [hnow, Nat.add_sub_cancel' (Nat.mul_le_mul_right _ hle)]
      rw [hsum]
      refine Interplay.reaches_later fun k hk m => ?_
      refine Interplay.move?_eq_none (s := { s with now := s.now + k }) hp (h.read hp) hasked
        hanswering hover ?_ m
      have hdeadline := hon.deadline_le
      have hmono : time * Config.milli ≤ S.deadline * Config.milli := Nat.mul_le_mul_right _ hin
      show s.now + k < T.deadline
      omega
  exact ⟨hreach, { h with
    good := h.good.reaches hon.fit hreach
    now := fun _ => rfl }⟩

/-- What is planned for the call is not done by others on its channel. -/
theorem isElsewhere_of_adds {effects : List Effect} {now : Nat} {agenda after : List Item}
    (hon : S.IsOn T) (hadds : Adds now (effects.flatMap (S.planned now)) agenda after)
    (h : ∀ x ∈ agenda, x.2.IsElsewhere T.channel) : ∀ x ∈ after, x.2.IsElsewhere T.channel := by
  obtain ⟨payloads, hcluster, -⟩ := hon.cluster
  have hinput {input : Fleet.Input} (hi : input.outsides = []) :
      (Occurrence.input input).IsElsewhere T.channel := by
    rintro _ ⟨⟩ op hop
    rw [hi] at hop
    cases hop
  refine hadds.forall_mem (fun x => x.2.IsElsewhere T.channel) ?_ fun x hx => ?_
  · exact fun _ _ _ => Occurrence.IsElsewhere.append
  · rcases List.mem_append.1 hx with hx | hx
    · obtain ⟨effect, -, hx⟩ := List.mem_flatMap.1 hx
      cases effect with
      | notify =>
        obtain rfl : x = (now + 0, .input (.event S.id .acknowledged)) := by
          simpa [Setup.planned, hcluster, Cluster.responding, answerItem, Cluster.frames, bursts,
            Cluster.reply] using hx
        exact hinput rfl
      | subscribe =>
        obtain rfl : x = (now + 0, .input (.attach S.id)) := by
          simpa [Setup.planned, hon.broker, Broker.prompt, answerItem, Broker.reply] using hx
        exact hinput rfl
      | release => cases hx
    · exact h x hx

/-- **Something happens to the call**, which reads then what there is. -/
theorem happen (h : Tracks S T before w s) (hon : S.IsOn T) (hlive : Live S 0 w s.run)
    {input : Fleet.Input} {t : Interplay} (hreach : Relation.ReflTransGen (Interplay.Next T) s t)
    (hmeet : (t.hub, t.run) = (s.run.meet s.hub input).2)
    (hnow : t.run.phase.outcome? = none → t.now = w.now * Config.milli)
    (hrequests : t.requests = s.requests ++ (s.run.meet s.hub input).1.flatMap S.sends)
    (hnotified : .notify ∉ t.asked)
    (hkeeps : Keeps S T w.now
      (w.responders ++ (s.run.meet s.hub input).1.flatMap (S.waiters w.now)) t.publisher) :
    LeadsTo S T before s (w.happen (.input input)) := by
  have hturned := hlive.turned input
  have hsent := hlive.requests_happen input
  have hread : Fleet.settleRun t.hub t.run = reached w s.run input := by
    obtain ⟨hhub, hrun⟩ := Prod.mk.inj hmeet
    rw [hhub, hrun, reached, h.hub]
  rw [h.hub] at hrequests hkeeps
  have ht := h.good.reaches hon.fit hreach
  have hsettle := ht.reaches_settle hon.fit
  have hcounted := ht.sane.counted
  have hsame := hturned.eq
  generalize w.happen (.input input) = w' at hturned hsent hsame ⊢
  have hwnow : w'.now = w.now := by rw [hsame]
  have hresponders : w'.responders = w.responders ++
      (s.run.meet w.fleet.hub input).1.flatMap (S.waiters w.now) := by rw [hsame]
  refine ⟨_, hreach.trans hsettle, ?_⟩
  exact {
    good := ht.reaches hon.fit hsettle
    id := (congrArg (·.2.id) hread).trans ((reached_id_ceremony w s.run input).1.trans h.id)
    lone := (congrArg Prod.snd hread).symm ▸ hturned.lone
    hub := (congrArg Prod.fst hread).trans hturned.hub_eq.symm
    now := fun hgoes => hwnow.symm ▸ hnow (Run.outcome?_of_settleRun hgoes)
    requests := by rw [hsent, h.requests, List.append_assoc, ← hrequests]
    own := by
      show T.own t.requests = t.requests
      rw [hrequests, Terms.own, List.filter_append]
      exact congrArg₂ _ h.own (hon.own_sends _)
    notified := hnotified
    read := fun hp => Run.kept_settleRun hcounted.sound hcounted.bound hp
    keeps := by
      rw [hwnow, hresponders]
      exact hkeeps
    elsewhere := isElsewhere_of_adds hon hturned.adds h.elsewhere }

theorem flatMap_eq_nil {α : Type} {f : Effect → List α} (hsub : f .subscribe = [])
    (hrel : f .release = []) {effects : List Effect} (h : .notify ∉ effects) :
    effects.flatMap f = [] := by
  refine List.flatMap_eq_nil_iff.2 fun effect hmem => ?_
  cases effect with
  | notify => exact absurd hmem h
  | subscribe => exact hsub
  | release => exact hrel

/-- Something happens to the call that makes it send nothing. -/
theorem happen_of_silent (h : Tracks S T before w s) (hon : S.IsOn T) (hlive : Live S 0 w s.run)
    {input : Fleet.Input} {t : Interplay} (hreach : Relation.ReflTransGen (Interplay.Next T) s t)
    (hmeet : (t.hub, t.run) = (s.run.meet s.hub input).2)
    (hnow : t.run.phase.outcome? = none → t.now = w.now * Config.milli)
    (hsilent : .notify ∉ (s.run.meet s.hub input).1) (hrequests : t.requests = s.requests)
    (hnotified : .notify ∉ t.asked) (hkeeps : Keeps S T w.now w.responders t.publisher) :
    LeadsTo S T before s (w.happen (.input input)) := by
  refine h.happen hon hlive hreach hmeet hnow ?_ hnotified ?_
  · rw [flatMap_eq_nil rfl rfl hsilent, List.append_nil, hrequests]
  · rwa [flatMap_eq_nil rfl rfl hsilent, List.append_nil]

/-- Somebody listens while the call waits for its result. -/
theorem subscriberCount_ne_zero (h : Tracks S T before w s) (hp : s.run.phase = .waiting) :
    w.fleet.hub.subscriberCount T.channel ≠ 0 := by
  intro hzero
  have hdetached := h.good.sane.count_eq_zero_iff.1 (h.hub ▸ hzero)
  rw [hp] at hdetached
  cases hdetached

/-- **The cluster finds that the call listens**, and publishes its script. -/
theorem published (h : Tracks S T before w s) (hon : S.IsOn T) (hlive : Live S 0 w s.run)
    (hp : s.run.phase = .waiting) (hnow : w.now = S.start)
    (hpublisher : s.publisher = some T.responder.publisher)
    (hnone : w.responders.filter (·.channel = T.channel) = []) :
    LeadsTo S T before s
      (w.happen (.input (.outside (T.payloads.map (Outside.publish T.channel))))) := by
  have htime := h.now (by rw [hp]; rfl)
  have hreach := Interplay.reaches_found hpublisher (by rw [htime, hnow, hon.start])
    (h.hub ▸ h.subscriberCount_ne_zero hp)
  refine h.happen_of_silent hon hlive hreach rfl (fun _ => htime) List.not_mem_nil rfl
    h.notified ?_
  exact .idle (fun p hp => by rw [← Option.some.inj hp]) hnone

end Tracks

end Rehearsal

end Custody
