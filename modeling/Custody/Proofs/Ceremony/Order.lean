import Custody.Ceremony.Call
import Custody.Proofs.Ceremony.Run
/-!
# The order of trigger and subscription

The course of a call is that of its ceremony, whatever the control plane and the broker do and
whenever they do it: any list of events is a course (`Call.course`). A call asks for its trigger and
its subscription at most once each, and for the second of the two only at the moment when the first
has been granted (`asked_order`).

The error of a trigger that failed is told to a caller who has no subscription, with one exception:
a broker may refuse a subscription with that very error, which is passed on as it is
(`triggerFailed_after_subscribe`).
-/

namespace Custody

open Ceremony

/-! ## Phases that tell of a failed trigger -/

namespace Ceremony

/-- A wait does not end with the error of a trigger. -/
theorem run_waiting_ne (c : Ceremony) (events : List Event) (reason : String) :
    (c.run .waiting events).1 ≠ fail (.triggerFailed reason) := by
  rcases c.run_eq_or_move .waiting events with hrun | ⟨before, event, rest, next, effects, h⟩
  · simp [hrun, fail]
  · rw [h.run]
    cases h.move with
    | attachFailed hp e => cases hp
    | result hr => simp [run_finished, fail]
    | closed => simp [run_finished, fail]
    | waitElapsed => simp [run_finished, fail]
    | cancelled hp => simp [run_finished, fail]

/-- A ceremony that has been acknowledged and has no subscription yet ends with the error of a
trigger only when the broker gives that error. -/
theorem attachFailed_of_run_attaching {c : Ceremony} {events : List Event} {reason : String}
    (h : (c.run .attaching events).1 = fail (.triggerFailed reason)) :
    ∃ before after, events = before ++ .attachFailed (.triggerFailed reason) :: after ∧
      c.run .attaching before = (.attaching, []) := by
  rcases c.run_eq_or_move .attaching events with hrun | ⟨before, event, rest, next, effects, hm⟩
  · simp [hrun, fail] at h
  · rw [hm.run] at h
    cases hm.move with
    | attachedLate => exact absurd h (c.run_waiting_ne rest reason)
    | attachFailed hp e =>
      have he : e = .triggerFailed reason := by simpa [fail, run_finished] using h
      subst he
      exact ⟨before, rest, hm.split, hm.idle⟩
    | attachingElapsed => simp [fail, run_finished, subscribeError] at h
    | cancelled hp => simp [fail, run_finished] at h

end Ceremony

/-- The errors of a signature that cannot be used are not those of a trigger. -/
theorem CanonicalSignature.ofDer_ne_triggerFailed (der digest : Bytes) (expected reason : String) :
    ofDer der digest expected ≠ .error (.triggerFailed reason) := by
  unfold ofDer
  split
  · simp
  · split
    · simp
    · split <;> simp

/-- The clock can tell the deadline of every configuration that is fit for use, as long as a day
is left on it. -/
theorem Clock.deadline_of_valid {config : Config} (h : config.Valid) {clock : Clock} {now : Nat}
    (hclock : now + Config.maxTimeout ≤ clock.last) :
    clock.deadline now config.timeout = .ok (now + config.timeout) :=
  if_pos (Nat.le_trans (Nat.add_le_add_left h.2.2 now) hclock)

/-! ## Courses of calls -/

namespace Call

/-- The course of a call while events happen: the phase it has come to and all that it has asked
for. A call that its own check refuses is over before it asks for anything. -/
def course (config : Config) (call : Call) (events : List Event) : Phase × List Effect :=
  match call.request config with
  | .error e => (fail e, [])
  | .ok _ =>
    let (phase, effects) := (call.ceremony config).start
    let (phase, more) := (call.ceremony config).run phase events
    (phase, effects ++ more)

/-- All that a call asks for while events happen. -/
def asked (config : Config) (call : Call) (events : List Event) : List Effect :=
  (call.course config events).2

/-- What the caller is told in the end. One who has given the call up is told nothing. -/
def told? (config : Config) (call : Call) (events : List Event) : Option (Except Error Answer) :=
  match (call.course config events).1 with
  | .finished (.returned result) => some (result >>= call.conclude)
  | _ => none

/-- There is a moment at which the call is in this phase, has asked for just these things, and
this event happens. -/
def Meets (config : Config) (call : Call) (events : List Event) (phase : Phase)
    (effects : List Effect) (event : Event) : Prop :=
  ∃ before after, events = before ++ event :: after ∧ call.course config before = (phase, effects)

/-- The digest that a call is to sign. -/
def digest? : Call → Option Bytes
  | createWallet _ => none
  | signRaw _ _ hash => some hash
  | sign _ _ hash _ => some hash

variable {config : Config} {call : Call} {events : List Event}

theorem course_of_error {e : Error} (h : call.request config = .error e) :
    call.course config events = (fail e, []) := by
  simp [course, h]

/-- A call that sends its trigger first asks for just that when it starts. -/
theorem start_of_triggerFirst (hc : config.subscribeFirst = false) :
    (call.ceremony config).start = (.triggering false, [.notify]) := by
  simp [ceremony, start, hc]

/-- A call that subscribes first asks for just that when it starts. -/
theorem start_of_subscribeFirst (hc : config.subscribeFirst = true) :
    (call.ceremony config).start = (.subscribing, [.subscribe]) := by
  simp [ceremony, start, hc]

/-- A call that sends its trigger first is at first in the phase that waits for the answer. -/
theorem course_of_triggerFirst {request : ActionRequest} (h : call.request config = .ok request)
    (hc : config.subscribeFirst = false) :
    call.course config events =
      (((call.ceremony config).run (.triggering false) events).1,
        .notify :: ((call.ceremony config).run (.triggering false) events).2) := by
  simp [course, h, start_of_triggerFirst hc]

/-- A call that subscribes first is at first in the phase that waits for the subscription. -/
theorem course_of_subscribeFirst {request : ActionRequest} (h : call.request config = .ok request)
    (hc : config.subscribeFirst = true) :
    call.course config events =
      (((call.ceremony config).run .subscribing events).1,
        .subscribe :: ((call.ceremony config).run .subscribing events).2) := by
  simp [course, h, start_of_subscribeFirst hc]

/-- What a call has asked for is a beginning of trigger and subscription, in the order of its
configuration. -/
theorem requests_asked :
    requests (call.asked config events) <+:
      if config.subscribeFirst then [.subscribe, .notify] else [.notify, .subscribe] := by
  cases hr : call.request config with
  | error e => simp [asked, course_of_error hr, requests]
  | ok request =>
    cases hc : config.subscribeFirst with
    | false =>
      have h := (call.ceremony config).requests_run (.triggering false) events
      rw [asked, course_of_triggerFirst hr hc]
      exact (List.prefix_cons_inj _).2 ((List.prefix_append _ _).trans h)
    | true =>
      have h := (call.ceremony config).requests_run .subscribing events
      rw [asked, course_of_subscribeFirst hr hc]
      exact (List.prefix_cons_inj _).2 ((List.prefix_append _ _).trans h)

/-- Nothing is asked of the outside twice. -/
theorem count_asked_le_one {effect : Effect} (h : effect ≠ .release) :
    (call.asked config events).count effect ≤ 1 := by
  rw [← count_requests h]
  refine Nat.le_trans (requests_asked.sublist.count_le effect) ?_
  cases config.subscribeFirst <;> cases effect <;> decide

/-! ## The check before a call -/

/-- With a configuration that is fit for use every call has a session. -/
theorem scope_of_valid (hv : config.Valid) (call : Call) :
    ∃ session, call.scope config = .ok session := by
  have hf := Parties.fault?_eq_none_iff.2 hv.1
  unfold scope Session.ofParties
  split
  · next fault h => rw [hf] at h; cases h
  · exact ⟨_, rfl⟩

/-- A call without a digest, or with one of the right length, is not refused by its own check. -/
theorem request_of_valid (hv : config.Valid)
    (hd : ∀ hash, call.digest? = some hash → hash.length = hashLength) :
    ∃ request, call.request config = .ok request := by
  obtain ⟨session, hs⟩ := scope_of_valid hv call
  cases call with
  | createWallet id => exact ⟨_, by rw [request, hs]; rfl⟩
  | signRaw id share hash =>
    exact ⟨_, by rw [request, signRequest, if_neg (Decidable.not_not.2 (hd hash rfl)), hs]; rfl⟩
  | sign id share hash address =>
    exact ⟨_, by rw [request, signRequest, if_neg (Decidable.not_not.2 (hd hash rfl)), hs]; rfl⟩

/-- A call with a digest of another length asks for nothing. -/
theorem asked_of_bad_digest {hash : Bytes} (hd : call.digest? = some hash)
    (hl : hash.length ≠ hashLength) : call.asked config events = [] := by
  have hr : ∃ e, call.request config = .error e := by
    cases call with
    | createWallet id => cases hd
    | signRaw id share digest =>
      cases hd
      exact ⟨_, by rw [request, signRequest, if_pos hl]⟩
    | sign id share digest address =>
      cases hd
      exact ⟨_, by rw [request, signRequest, if_pos hl]⟩
  obtain ⟨e, he⟩ := hr
  rw [asked, course_of_error he]

/-- What a call makes of a result is never the error of a trigger. -/
theorem conclude_ne_triggerFailed (call : Call) (result : CeremonyResult) (reason : String) :
    call.conclude result ≠ .error (.triggerFailed reason) := by
  cases call with
  | createWallet id => cases result <;> simp [conclude, CeremonyResult.expectKeygen,
      CeremonyResult.mismatch, Functor.map, Except.map]
  | signRaw id share hash => cases result <;> simp [conclude, CeremonyResult.expectSignature,
      CeremonyResult.mismatch, Functor.map, Except.map]
  | sign id share hash address =>
    cases result with
    | keygen key => simp [conclude, CeremonyResult.expectSignature, CeremonyResult.mismatch, bind,
        Except.bind]
    | sign raw =>
      have hne := CanonicalSignature.ofDer_ne_triggerFailed raw.der hash address reason
      cases hd : CanonicalSignature.ofDer raw.der hash address with
      | ok sig => simp [conclude, CeremonyResult.expectSignature, bind, Except.bind, hd,
          Functor.map, Except.map]
      | error e =>
        rw [hd] at hne
        simpa [conclude, CeremonyResult.expectSignature, bind, Except.bind, hd, Functor.map,
          Except.map] using hne

theorem course_of_told_triggerFailed {reason : String}
    (h : call.told? config events = some (.error (.triggerFailed reason))) :
    (call.course config events).1 = fail (.triggerFailed reason) := by
  unfold told? at h
  split at h
  · next result hp =>
    cases result with
    | ok result => exact absurd (Option.some.inj h) (call.conclude_ne_triggerFailed result reason)
    | error e =>
      have he : e = .triggerFailed reason := Except.error.inj (Option.some.inj h)
      rw [hp, he, fail]
  · cases h

/-! ## Trigger first -/

/-- The subscription is asked for exactly at the moment when the trigger is acknowledged. -/
theorem subscribe_mem_asked_iff (hc : config.subscribeFirst = false) :
    .subscribe ∈ call.asked config events ↔
      call.Meets config events (.triggering false) [.notify] .acknowledged := by
  cases hr : call.request config with
  | error e => simp [asked, Meets, course_of_error hr, fail]
  | ok request =>
    simp only [asked, Meets, course_of_triggerFirst hr hc, List.mem_cons, reduceCtorEq, false_or,
      Prod.mk.injEq, List.cons.injEq, true_and]
    constructor
    · intro hs
      rcases (call.ceremony config).run_eq_or_move (.triggering false) events with
        hrun | ⟨before, event, rest, next, effects, hm⟩
      · simp [hrun] at hs
      · have hidle := Prod.mk.inj hm.idle
        rw [hm.run] at hs
        cases hm.move with
        | acknowledgedLate => exact ⟨before, rest, hm.split, hidle⟩
        | attachFailed hp e => cases hp
        | refused early e => simp [fail, run_finished, releaseIf] at hs
        | triggerElapsed early => simp [fail, run_finished, releaseIf] at hs
        | cancelled hp => simp [run_finished, Phase.isAttached, releaseIf] at hs
    · rintro ⟨before, after, rfl, hphase, heffects⟩
      rw [run_append, hphase, run_cons]
      simp [step]

/-- A caller who is told that the trigger failed has no subscription, unless the broker has
refused the subscription with that very error. -/
theorem not_mem_asked_of_told_triggerFailed (hc : config.subscribeFirst = false) {reason : String}
    (h : (call.course config events).1 = fail (.triggerFailed reason)) :
    .subscribe ∉ call.asked config events ∨
      call.Meets config events .attaching [.notify, .subscribe]
        (.attachFailed (.triggerFailed reason)) := by
  by_cases hs : .subscribe ∈ call.asked config events
  · refine .inr ?_
    obtain ⟨before, after, rfl, hbefore⟩ := (subscribe_mem_asked_iff hc).1 hs
    cases hr : call.request config with
    | error e => simp [asked, course_of_error hr] at hs
    | ok request =>
      rw [course_of_triggerFirst hr hc] at hbefore h
      obtain ⟨hphase, heffects⟩ := Prod.mk.inj hbefore
      rw [run_append, hphase, run_cons, step] at h
      obtain ⟨first, last, rfl, hidle⟩ := attachFailed_of_run_attaching h
      refine ⟨before ++ .acknowledged :: first, last, by simp, ?_⟩
      rw [course_of_triggerFirst hr hc, run_append, hphase, run_cons, step, hidle,
        (List.cons.inj heffects).2]
      rfl
  · exact .inl hs

/-! ## Subscription first -/

/-- The trigger is sent exactly at the moment when the subscription is open. -/
theorem notify_mem_asked_iff (hc : config.subscribeFirst = true) :
    .notify ∈ call.asked config events ↔
      call.Meets config events .subscribing [.subscribe] .attached := by
  cases hr : call.request config with
  | error e => simp [asked, Meets, course_of_error hr, fail]
  | ok request =>
    simp only [asked, Meets, course_of_subscribeFirst hr hc, List.mem_cons, reduceCtorEq, false_or,
      Prod.mk.injEq, List.cons.injEq, true_and]
    constructor
    · intro hs
      rcases (call.ceremony config).run_eq_or_move .subscribing events with
        hrun | ⟨before, event, rest, next, effects, hm⟩
      · simp [hrun] at hs
      · have hidle := Prod.mk.inj hm.idle
        rw [hm.run] at hs
        cases hm.move with
        | attachedEarly => exact ⟨before, rest, hm.split, hidle⟩
        | attachFailed hp e => simp [fail, run_finished] at hs
        | subscribingElapsed => simp [fail, run_finished] at hs
        | cancelled hp => simp [run_finished, Phase.isAttached, releaseIf] at hs
    · rintro ⟨before, after, rfl, hphase, heffects⟩
      rw [run_append, hphase, run_cons]
      simp [step]

/-- A call whose subscription is refused has sent no trigger, and sends none. -/
theorem notify_not_mem_asked_of_attachFailed (hc : config.subscribeFirst = true) {e : Error}
    (h : call.Meets config events .subscribing [.subscribe] (.attachFailed e)) :
    .notify ∉ call.asked config events := by
  obtain ⟨before, after, rfl, hbefore⟩ := h
  cases hr : call.request config with
  | error e => simp [asked, course_of_error hr]
  | ok request =>
    rw [course_of_subscribeFirst hr hc] at hbefore
    obtain ⟨hphase, heffects⟩ := Prod.mk.inj hbefore
    rw [asked, course_of_subscribeFirst hr hc, run_append, hphase, run_cons, step,
      (List.cons.inj heffects).2, fail, run_finished]
    simp

end Call

/-! ## The order -/

/-- **The order of trigger and subscription.** Whatever happens to a call of a coordinator, it asks
for its trigger and its subscription at most once each, and it asks at once for the first of them,
unless its digest has a wrong length: then it asks for nothing. Where the trigger comes first, the
subscription is asked for exactly at the moment when the trigger has been acknowledged, and a caller
who is told that the trigger failed has none, unless the broker refused it with that very error.
Where the subscription comes first, the trigger is sent exactly at the moment when the subscription
is open, and never by a call whose subscription was refused. -/
theorem asked_order (coordinator : Coordinator) (call : Call) (events : List Event) :
    (call.asked coordinator.config events).count .notify ≤ 1 ∧
    (call.asked coordinator.config events).count .subscribe ≤ 1 ∧
    ((∀ hash, call.digest? = some hash → hash.length = hashLength) →
      (if coordinator.config.subscribeFirst then .subscribe else .notify) ∈
        call.asked coordinator.config events) ∧
    (∀ hash, call.digest? = some hash → hash.length ≠ hashLength →
      call.asked coordinator.config events = []) ∧
    (coordinator.config.subscribeFirst = false →
      (.subscribe ∈ call.asked coordinator.config events ↔
        call.Meets coordinator.config events (.triggering false) [.notify] .acknowledged) ∧
      ∀ reason, call.told? coordinator.config events = some (.error (.triggerFailed reason)) →
        .subscribe ∉ call.asked coordinator.config events ∨
          call.Meets coordinator.config events .attaching [.notify, .subscribe]
            (.attachFailed (.triggerFailed reason))) ∧
    (coordinator.config.subscribeFirst = true →
      (.notify ∈ call.asked coordinator.config events ↔
        call.Meets coordinator.config events .subscribing [.subscribe] .attached) ∧
      ∀ e, call.Meets coordinator.config events .subscribing [.subscribe] (.attachFailed e) →
        .notify ∉ call.asked coordinator.config events) := by
  refine ⟨Call.count_asked_le_one (by decide), Call.count_asked_le_one (by decide), fun hd => ?_,
    fun hash hd hl => Call.asked_of_bad_digest hd hl, fun hc => ⟨Call.subscribe_mem_asked_iff hc,
      fun reason ht => ?_⟩, fun hc => ⟨Call.notify_mem_asked_iff hc,
        fun e => Call.notify_not_mem_asked_of_attachFailed hc⟩⟩
  · obtain ⟨request, hr⟩ := Call.request_of_valid coordinator.valid hd
    cases hc : coordinator.config.subscribeFirst with
    | false => simp [Call.asked, Call.course_of_triggerFirst hr hc]
    | true => simp [Call.asked, Call.course_of_subscribeFirst hr hc]
  · exact Call.not_mem_asked_of_told_triggerFailed hc (Call.course_of_told_triggerFailed ht)

/-- The coordinator with the standard configuration. -/
def Coordinator.standard : Coordinator := ⟨.standard, Config.fault?_eq_none_iff.1 (by decide)⟩

/-- The call that creates a wallet in the session `s1`. -/
def Call.firstWallet : Call := .createWallet ⟨"s1", by decide, by decide, by decide⟩

/-- **A broker's refusal can pass for a failed trigger**: the trigger has been acknowledged and the
subscription has been asked for when the broker gives the error that the caller is told. -/
theorem triggerFailed_after_subscribe :
    Coordinator.standard.config.subscribeFirst = false ∧
      Call.firstWallet.told? Coordinator.standard.config
          [.acknowledged, .attachFailed (.triggerFailed "boom")] =
        some (.error (.triggerFailed "boom")) ∧
      Call.firstWallet.asked Coordinator.standard.config
          [.acknowledged, .attachFailed (.triggerFailed "boom")] = [.notify, .subscribe] :=
  ⟨rfl, rfl, rfl⟩

end Custody
