import Custody.Proofs.Ceremony.Outcome
import Custody.Proofs.Rehearsal.Completion
import Custody.Proofs.Rehearsal.Mirror
/-!
# Ceremonies through a scripted cluster

A call that is played against a scripted cluster and its broker takes one of the courses of its
ceremony and the cluster's publisher (`Starting.exists_course`). So it ends with the first result of
the script, or without one (`scripted_ceremony`), whatever comes first.
-/

namespace Custody

open Ceremony

namespace Rehearsal

/-- Nobody uses the channel: nobody listens there, and nobody will publish there or close it. -/
structure World.IsFree (w : World) (channel : String) : Prop where
  listeners : w.fleet.hub.subscriberCount channel = 0
  agenda : ∀ x ∈ w.agenda, x.2.IsElsewhere channel
  responders : ∀ r ∈ w.responders, r.channel ≠ channel

/-- `Launched S T w w'`: the call has been launched in a world, and no more has been done than what
it asks for then. -/
structure Launched (S : Setup) (T : Terms) (w w' : World) : Prop where
  now : w'.now = S.start
  hub : w.fleet.hub = w'.fleet.hub
  lone : w'.fleet.Lone ⟨S.id, T.ceremony, T.ceremony.start.1, none⟩
  requests : w'.requests = w.requests ++ T.ceremony.start.2.flatMap S.sends
  responders : w'.responders = w.responders ++ T.ceremony.start.2.flatMap (S.waiters S.start)
  elsewhere : ∀ x ∈ w'.agenda, x.2.IsElsewhere T.channel

namespace Starting

variable {S : Setup} {T : Terms} {w : World} {early late : List Item}

/-- What is on the agenda after the launch is not about the channel. -/
theorem elsewhere_launched (h : Starting S 0 w [] late) (hon : S.IsOn T)
    (hfree : w.IsFree T.channel) {agenda : List Item}
    (hadds : Adds S.start (S.ceremony.start.2.flatMap (S.planned S.start))
      ((present S w late).launched S).agenda agenda) :
    ∀ x ∈ agenda, x.2.IsElsewhere T.channel := by
  refine Tracks.isElsewhere_of_adds hon hadds ?_
  refine (adds_deadline S w late).forall_mem (fun x => x.2.IsElsewhere T.channel) ?_ ?_
  · exact fun _ _ _ => Occurrence.IsElsewhere.append
  · refine List.forall_mem_cons.2 ⟨fun input hinput op hop => ?_, fun x hx => ?_⟩
    · obtain rfl := Occurrence.input.inj hinput
      cases hop
    · exact hfree.agenda x (by rw [h.agenda]; exact .tail _ hx)

/-- **The launch** of a call. -/
theorem launched (h : Starting S 0 w [] late) (hon : S.IsOn T) (hfree : w.IsFree T.channel) :
    Launched S T w ((present S w late).happen (.launch S.task)) := by
  have hplans := World.plans_launch (w := present S w late) h.cluster h.broker h.ready.sane.tasks
  have hrequests := World.requests_serve (w := (present S w late).launched S)
    (World.find?_task h.ready.sane.tasks) S.ceremony.start.2
  rw [List.foldl_map] at hrequests
  have hlone := h.ready.idle.lone_launch S.ceremony
  have hfleet : ((present S w late).happen (.launch S.task)).fleet =
      (w.fleet.launch S.id S.ceremony).2 := by rw [hplans.eq]; rfl
  rw [← hfleet, ← hon.ceremony] at hlone
  exact {
    now := by rw [hplans.eq]; rfl
    hub := by rw [hfleet]; rfl
    lone := hlone
    requests := hon.ceremony.symm ▸ hrequests
    responders := by rw [hplans.eq, hon.ceremony]; rfl
    elsewhere := h.elsewhere_launched hon hfree hplans.adds }

/-- The launch of a call is the beginning of its course. -/
theorem leadsTo_launch (h : Starting S 0 w [] late) (hon : S.IsOn T) (hfree : w.IsFree T.channel)
    (hroom : 64 ≤ w.fleet.hub.capacity) :
    LeadsTo S T w.requests (.start T w.fleet.hub S.id [])
      ((present S w late).happen (.launch S.task)) := by
  have hlaunched := h.launched hon hfree
  generalize (present S w late).happen (.launch S.task) = w' at hlaunched ⊢
  have hgood := Interplay.good_start h.ready.sane.sound hroom hfree.listeners
    (rfl : T.own [] = []) S.id
  have hown : w.responders.filter (·.channel = T.channel) = [] :=
    List.filter_eq_nil_iff.2 fun r hr => by simpa using hfree.responders r hr
  have htime : T.start = w'.now * Config.milli := by rw [hlaunched.now, hon.start]
  cases hfirst : T.config.subscribeFirst with
  | true =>
    have hstart : T.ceremony.start = (.subscribing, [.subscribe]) :=
      Call.start_of_subscribeFirst hfirst
    refine Mirrors.leadsTo {
      good := hgood
      id := rfl
      lone := hlaunched.lone
      hub := hlaunched.hub
      now := fun _ => htime
      requests := by rw [hlaunched.requests, hstart]; rfl
      own := rfl
      notified := by simp [Interplay.start, hstart]
      read := fun hp => by simp [Interplay.start, hstart] at hp
      elsewhere := hlaunched.elsewhere
      keeps := .idle (by simp [Interplay.start]) ?_ }
    rw [hlaunched.responders, hstart]
    simpa [Setup.waiters] using hown
  | false =>
    have hstart : T.ceremony.start = (.triggering false, [.notify]) :=
      Call.start_of_triggerFirst hfirst
    have hnotify := Interplay.move?_notify_of_start (s := .start T w.fleet.hub S.id []) hon.fit rfl
      (congrArg Prod.snd hstart)
    refine ⟨_, .single (.move hnotify), ?_⟩
    exact {
      good := hgood.next hon.fit (.move hnotify)
      id := rfl
      lone := hlaunched.lone
      hub := hlaunched.hub
      now := fun _ => htime
      requests := by rw [hlaunched.requests, hstart, hon.request]; rfl
      own := by
        rw [hon.request]
        exact hon.own_sends [.notify]
      notified := List.not_mem_nil
      read := fun hp => by simp [Interplay.start, hstart] at hp
      elsewhere := hlaunched.elsewhere
      keeps := by
        rw [hlaunched.responders, hstart, List.flatMap_singleton]
        exact .notified hon hlaunched.now hown }

/-- What comes early leaves the channel free. -/
theorem isFree_early {x : Item} (h : Starting S 0 w (x :: early) late) {channel : String}
    (hfree : w.IsFree channel) :
    ∃ w', w.step? = some w' ∧ Starting S 0 w' early late ∧ w'.IsFree channel ∧
      w'.requests = w.requests ∧ w'.fleet.hub.capacity = w.fleet.hub.capacity := by
  obtain ⟨input, w', hx, hstep, hnext, hresponders, hrequests, hhub⟩ := h.happen_early
  have hmem {y : Item} (hy : y ∈ w'.agenda) : y ∈ w.agenda := by
    rw [hnext.agenda] at hy
    rw [h.agenda]
    exact .tail _ hy
  have hops := hfree.agenda x (h.agenda ▸ List.mem_cons_self) input hx
  refine ⟨w', hstep, hnext, ⟨?_, fun y hy => hfree.agenda y (hmem hy), ?_⟩, hrequests, ?_⟩
  · rw [hhub]
    exact (Hub.subscriberCount_of_elsewhere h.ready.sane.sound hops).trans hfree.listeners
  · rw [hresponders]
    exact hfree.responders
  · rw [hhub, Hub.capacity_run]

/-- **A call that is about to start takes a course.** -/
theorem exists_course (h : Starting S 0 w early late) (hon : S.IsOn T)
    (hfree : w.IsFree T.channel) (hroom : 64 ≤ w.fleet.hub.capacity) {fuel : Nat}
    (hfuel : early.length < fuel) :
    ∃ hub, LeadsTo S T w.requests (.start T hub S.id []) (w.runFor fuel [S.id]) := by
  induction early generalizing w fuel with
  | nil =>
    obtain ⟨fuel, rfl⟩ := Nat.exists_eq_succ_of_ne_zero (Nat.ne_of_gt hfuel)
    have hstep := h.step?_eq h.agenda rfl
    obtain ⟨s, hreach, hmirrors⟩ := h.leadsTo_launch hon hfree hroom
    simp only [World.runFor, h.areOver_eq, hstep, Bool.false_eq_true, if_false]
    exact ⟨_, (hmirrors.runFor hon (h.outlook (w.isQuietFor_zero S).trigger) fuel).of_reaches
      hreach⟩
  | cons x early ih =>
    obtain ⟨fuel, rfl⟩ := Nat.exists_eq_succ_of_ne_zero (Nat.ne_of_gt (Nat.zero_lt_of_lt hfuel))
    obtain ⟨w', hstep, hnext, hfree', hrequests, hcapacity⟩ := h.isFree_early hfree
    simp only [World.runFor, h.areOver_eq, hstep, Bool.false_eq_true, if_false]
    rw [← hrequests]
    exact ih hnext hfree' (hcapacity ▸ hroom) (Nat.lt_of_succ_lt_succ hfuel)

end Starting

namespace World

variable {w : World} {T : Terms} {config : Config} {call : Call} {request : ActionRequest}

theorem outcome?_of_ending? {run : Run} (hlone : w.fleet.Lone run) {outcome : Outcome} {time : Nat}
    (h : w.ending? run.id = some (outcome, time)) : run.phase.outcome? = some outcome := by
  simp only [ending?, hlone.run?, Option.bind_some] at h
  split at h
  · next houtcome _ =>
    obtain ⟨rfl, -⟩ := Prod.mk.inj (Option.some.inj h)
    exact houtcome
  · cases h

/-- **A call that is played on its terms** returns the verdict on the script, and its cluster has
been sent just its trigger. -/
theorem play_of_isOn (hw : w.Ready) (hon : (w.setup config call request).IsOn T)
    (hfree : w.IsFree T.channel) (hroom : 64 ≤ w.fleet.hub.capacity)
    (haccept : call.accept w.clock (w.now * Config.milli) config = .ok request) :
    (w.play config call).1.result = call.channel.verdict T.payloads >>= call.conclude ∧
      (w.play config call).2.requests = w.requests ++ [request] := by
  have hquiet := w.isQuietFor_zero (w.setup config call request)
  obtain ⟨w', hplay, hw'⟩ := play_of_ok haccept
  obtain ⟨early, late, hstart⟩ := exists_starting hw hquiet
  have hadds : Adds w.now [(w.now, .launch (taskOf config w.next call request))] w.agenda _ :=
    adds_insert (Nat.le_refl w.now)
  have hfree' : IsFree ({ w with next := w.next + 1 }.schedule w.now
      (.launch (taskOf config w.next call request))) T.channel := by
    refine ⟨hfree.listeners, hadds.forall_mem (fun x => x.2.IsElsewhere T.channel)
      (fun _ _ _ => Occurrence.IsElsewhere.append) ?_, hfree.responders⟩
    exact List.forall_mem_cons.2 ⟨nofun, hfree.agenda⟩
  have hfuel : early.length < w.agenda.length + w.responders.length +
      (8 + (w.cluster.script request).length) := by
    have hagenda := congrArg List.length hstart.agenda
    have hlength := hadds.length_le
    simp only [schedule, List.length_append, List.length_cons, List.length_nil] at hagenda hlength
    omega
  obtain ⟨hub, s, -, hmirrors⟩ := hstart.exists_course hon hfree' hroom hfuel
  obtain ⟨result, elapsed, -, hend, hplayed, -⟩ := play_spec hw haccept hquiet
  have hid : s.run.id = w.next := hmirrors.id
  have hlone : w'.fleet.Lone s.run := by
    rw [hw']
    exact hmirrors.lone
  rw [hplay, ← hid] at hend
  have hphase := Phase.outcome?_eq_some_iff.1 (outcome?_of_ending? hlone hend)
  obtain ⟨hresult, hown⟩ := hmirrors.good.outcome_eq hphase
  obtain rfl := Outcome.returned.inj hresult
  constructor
  · rw [hplayed, hon.call]
    rfl
  · have hrequests : w'.requests = w.requests ++ s.requests := by
      rw [hw']
      exact hmirrors.requests
    rw [hplay, hrequests, ← hmirrors.own, hown, hon.request]
    rfl

/-- The terms of a call that starts now, through a cluster that has these payloads for a request and
waits so long for a subscriber. -/
def terms (w : World) (config : Config) (call : Call) (request : ActionRequest)
    (payloads : ActionRequest → Option (List String)) (patience : Nat) : Terms where
  config := config
  call := call
  request := request
  script := payloads request
  patience := patience
  start := w.now * Config.milli

/-- A world in which a call can start, through a scripted cluster and its broker, over a session
that nobody else uses. -/
structure Hosts (w : World) (config : Config) (call : Call) (request : ActionRequest)
    (payloads : ActionRequest → Option (List String)) (patience : Nat) : Prop where
  ready : w.Ready
  cluster : w.cluster = .responding none (patience / Config.milli) payloads
  broker : w.broker = .prompt
  room : 64 ≤ w.fleet.hub.capacity
  free : w.IsFree call.channel.name
  accept : call.accept w.clock (w.now * Config.milli) config = .ok request

variable {payloads : ActionRequest → Option (List String)} {patience : Nat}

/-- Such a call is played on its terms. -/
theorem Hosts.isOn (h : w.Hosts config call request payloads patience)
    (hlength : ∀ script ∈ payloads request, script.length ≤ 64)
    (hpatience : 10 * Config.milli < patience) (htimeout : 10 * Config.milli < config.timeout) :
    (w.setup config call request).IsOn (w.terms config call request payloads patience) where
  config := rfl
  call := rfl
  request := rfl
  start := rfl
  cluster := ⟨payloads, h.cluster, rfl⟩
  broker := h.broker
  fit := {
    trigger := congrArg ChannelKey.name
      (Call.isTrigger_of_request (request_of_accept h.accept)).channel
    length_le := by
      show ((payloads request).getD []).length ≤ 64
      cases hscript : payloads request with
      | none => exact Nat.zero_le _
      | some script => exact hlength script hscript
    patience := hpatience
    timeout := htimeout }

/-- Whether the subscription comes first does not matter for the request. -/
theorem Hosts.with_subscribeFirst (h : w.Hosts config call request payloads patience)
    (first : Bool) :
    w.Hosts { config with subscribeFirst := first } call request payloads patience :=
  { h with
    accept := by
      rw [← h.accept]
      cases call <;> rfl }

/-- **Who has given up publishes nothing**, whoever listens then. -/
theorem respond_of_late {r : Responder} {limit time : Nat} (hlimit : r.limit? = some limit)
    (hlate : limit < w.now) (hdue : w.due? r = some time) (others : List Responder) :
    w.respond time r others = { w with responders := others } := by
  have hgone : World.Responder.hasGivenUp r time = true := by
    rw [Responder.hasGivenUp_eq, hlimit]
    simpa using Nat.lt_of_lt_of_le hlate (now_le_due hdue)
  simp only [respond, hgone, if_true]

end World

/-- What a ceremony can still come to from here: it is in time, it ends with the verdict on its
script after one trigger, and it can always be brought to its end. -/
structure Interplay.Settles (T : Terms) (s : Interplay) : Prop where
  inTime : s.now ≤ T.deadline ∨ s.run.phase.outcome?.isSome = true
  outcome : ∀ outcome, s.run.phase = .finished outcome →
    outcome = .returned (T.call.channel.verdict T.payloads) ∧ T.own s.requests = [T.request]
  ends : ∃ t, Relation.ReflTransGen (Interplay.Next T) s t ∧ t.run.phase.outcome?.isSome = true

theorem Interplay.Good.settles {T : Terms} {s : Interplay} (h : s.Good T) (hT : T.Fit) :
    s.Settles T where
  inTime := h.sane.inTime
  outcome _ := h.outcome_eq
  ends := h.exists_end hT

/-- **A scripted cluster and both orders agree.** Take a cluster that publishes at most 64 payloads
for the request of a call, with its own broker and a session that nobody else uses; both the
cluster's patience and the ceremony's time are more than the 10 milliseconds between two looks.
Whether the trigger or the subscription comes first:

* Played in a rehearsal, the call is told of the first result among the payloads, or that its time
  has run out if there is none, and the cluster has been sent just its trigger.
* The same holds in whatever order the trigger, the subscription, the wait and the publisher go on,
  and others beside them: each course ends in time, with this verdict and after one trigger, and
  from each of its moments it can be brought to its end.
* A publisher that nobody has listened to in time never does anything to the hub, so that one who
  listens later is given nothing of its script; nor does a responder in a rehearsal. -/
theorem scripted_ceremony {w : World} {config : Config} {call : Call} {request : ActionRequest}
    {payloads : ActionRequest → Option (List String)} {patience : Nat}
    (hhosts : w.Hosts config call request payloads patience)
    (hlength : ∀ script ∈ payloads request, script.length ≤ 64)
    (hpatience : 10 * Config.milli < patience) (htimeout : 10 * Config.milli < config.timeout)
    (first : Bool) :
    let T := w.terms { config with subscribeFirst := first } call request payloads patience
    ((w.play { config with subscribeFirst := first } call).1.result =
        call.channel.verdict ((payloads request).getD []) >>= call.conclude ∧
      (w.play { config with subscribeFirst := first } call).2.requests = w.requests ++ [request]) ∧
    (∀ hub : Hub, hub.Sound → 64 ≤ hub.capacity → hub.subscriberCount call.channel.name = 0 →
      ∀ requests, (∀ sent ∈ requests, channelOf sent ≠ call.channel.name) → ∀ id s,
        Relation.ReflTransGen (Interplay.Next T) (.start T hub id requests) s → s.Settles T) ∧
    (∀ hub v, Watch.Unheard T.responder (T.start + patience) hub v →
      (∀ op p, v.publisher.turn? v.now v.hub = some (op, p) → op = none) ∧
        (T.start + patience < v.now → v.publisher.errand = .finished)) ∧
    ∀ r : Responder, w.cluster.response request = some r.response → ∀ v : World, ∀ time others,
      r.start + patience / Config.milli < v.now → v.due? r = some time →
        v.respond time r others = { v with responders := others } := by
  intro T
  have hhosts' := hhosts.with_subscribeFirst first
  have hon := hhosts'.isOn hlength hpatience htimeout
  refine ⟨World.play_of_isOn hhosts'.ready hon hhosts'.free hhosts'.room hhosts'.accept,
    fun hub hs hroom hnobody requests hothers id s hreach => ?_,
    fun hub v hunheard => hunheard.quiet rfl, fun r hr v time others hlate hdue => ?_⟩
  · have hown : T.own requests = [] :=
      List.filter_eq_nil_iff.2 fun sent hsent he =>
      hothers sent hsent (eq_of_beq he)
    have hgood := Interplay.good_start (T := T) hs hroom hnobody hown id
    exact (hgood.reaches hon.fit hreach).settles hon.fit
  · refine World.respond_of_late ?_ hlate hdue others
    rw [hhosts.cluster] at hr
    obtain ⟨script, -, hresponse⟩ := Option.map_eq_some_iff.1 hr
    rw [Responder.limit?, ← hresponse]
    rfl

/-- For a key generation: a heartbeat, a key and another key. -/
def twoKeys (request : ActionRequest) : Option (List String) :=
  match request.action with
  | .initKeygen => some ["heartbeat",
      "\x7b\"share_data\":\"c2hhcmU=\",\"pub_key\":\"0x01\"\x7d",
      "\x7b\"share_data\":\"c2hhcmU=\",\"pub_key\":\"0x02\"\x7d"]
  | .initSign => none

theorem scripted_ceremony_of_twoKeys :
    ∃ request, World.Hosts (.new .standard (.responding none 5000 twoKeys) .prompt) .early
        .firstWallet request twoKeys (5000 * Config.milli) ∧
      (∀ script ∈ twoKeys request, script.length ≤ 64) ∧
      10 * Config.milli < 5000 * Config.milli ∧ 10 * Config.milli < Config.early.timeout ∧
      ∀ first, (World.play (.new .standard (.responding none 5000 twoKeys) .prompt)
        { Config.early with subscribeFirst := first } .firstWallet).1.result =
          .ok (.key ⟨[115, 104, 97, 114, 101], "0x01"⟩) := by
  obtain ⟨request, hrequest⟩ : ∃ request, Call.firstWallet.accept Clock.standard
      (0 * Config.milli) .early = .ok request := ⟨_, rfl⟩
  have hhosts : World.Hosts (.new .standard (.responding none 5000 twoKeys) .prompt) .early
      .firstWallet request twoKeys (5000 * Config.milli) := {
    ready := World.ready_new (Hub.sound_new 64) _ _ (.nil : List.Pairwise _ [])
    cluster := rfl
    broker := rfl
    room := Nat.le_refl 64
    free := ⟨by decide, nofun, nofun⟩
    accept := hrequest }
  have haction : request.action = .initKeygen :=
    ((Call.isTrigger_of_request (World.request_of_accept hrequest)).keygen _ rfl).1
  have hlength : ∀ script ∈ twoKeys request, script.length ≤ 64 := by
    rw [twoKeys, haction]
    rintro _ ⟨⟩
    decide
  have hpatience : 10 * Config.milli < 5000 * Config.milli := by decide
  have htimeout : 10 * Config.milli < Config.early.timeout := by decide
  refine ⟨request, hhosts, hlength, hpatience, htimeout, fun first => ?_⟩
  have hverdict : Call.firstWallet.channel.verdict ((twoKeys request).getD []) =
      .ok (.keygen ⟨[115, 104, 97, 114, 101], "0x01"⟩) := by
    rw [twoKeys, haction]
    decide +kernel
  rw [(scripted_ceremony hhosts hlength hpatience htimeout first).1.1, hverdict]
  rfl

end Rehearsal

end Custody
