import Custody.Proofs.Ceremony.Order
import Custody.Proofs.Wait
/-!
# Failures after the trigger

Once the trigger of a call has been acknowledged the cluster is at work, and a call that fails from
then on may leave a result behind that nobody has received. It can fail in three ways only
(`failure_after_acknowledged`): the deadline passes, which is the one error that says so
(`Error.outcomeUnknown`), the stream of the subscription ends, or the broker refuses a subscription
that is asked for after the trigger, with an error of its own that is passed on as it is.

An ended stream counts as a failure of the ceremony (`not_outcomeUnknown_of_ended_stream`).

* `Ceremony.exists_last_move`: a ceremony that is over has a last move.
* `Ceremony.run_isAcknowledged`: the answer to the trigger is not forgotten.
-/

namespace Custody

open Ceremony

/-! ## Last moves -/

namespace Ceremony

/-- The trigger has been acknowledged, and the ceremony is not over. -/
def Phase.isAcknowledged : Phase → Bool
  | .attaching => true
  | .waiting => true
  | _ => false

theorem Phase.outcome?_eq_some_iff {phase : Phase} {outcome : Outcome} :
    phase.outcome? = some outcome ↔ phase = .finished outcome := by
  cases phase <;> simp [outcome?]

/-- **A ceremony that is over has a last move.** -/
theorem exists_last_move {c : Ceremony} {phase : Phase} {events : List Event} {outcome : Outcome}
    (hp : phase.outcome? = none) (h : (c.run phase events).1 = .finished outcome) :
    ∃ before event after effects, events = before ++ event :: after ∧
      c.Move (c.run phase before).1 event (.finished outcome) effects := by
  induction events generalizing phase with
  | nil =>
    obtain rfl : phase = .finished outcome := h
    cases hp
  | cons event rest ih =>
    cases hnext : (c.step phase event).1.outcome? with
    | none =>
      obtain ⟨before, last, after, effects, rfl, hm⟩ := ih hnext h
      exact ⟨event :: before, last, after, effects, rfl, hm⟩
    | some ending =>
      -- the first event is the last that counts
      have hs := Phase.outcome?_eq_some_iff.1 hnext
      have hrun : c.run phase (event :: rest) =
          (.finished ending, (c.step phase event).2 ++ []) := by
        rw [run_cons, hs, run_finished]
      obtain rfl : ending = outcome := by
        rw [hrun] at h
        exact Phase.finished.inj h
      rcases c.step_eq phase event with hsame | hm
      · rw [hsame, hp] at hnext
        cases hnext
      · rw [hs] at hm
        exact ⟨[], event, rest, _, rfl, hm⟩

theorem Move.isAcknowledged {c : Ceremony} {phase next : Phase} {event : Event}
    {effects : List Effect} (h : c.Move phase event next effects)
    (ha : phase.isAcknowledged = true) :
    next.isAcknowledged = true ∨ next.outcome?.isSome = true := by
  cases h <;> first | exact .inr rfl | exact .inl rfl | cases ha

/-- The answer to the trigger is not forgotten before the ceremony is over. -/
theorem run_isAcknowledged (c : Ceremony) {phase : Phase} (h : phase.isAcknowledged = true)
    (events : List Event) :
    (c.run phase events).1.isAcknowledged = true ∨
      (c.run phase events).1.outcome?.isSome = true := by
  induction events generalizing phase with
  | nil => exact .inl h
  | cons event rest ih =>
    rw [run_cons]
    rcases c.step_eq phase event with hs | hm
    · rw [hs]
      exact ih h
    · rcases hm.isAcknowledged h with ha | hover
      · exact ih ha
      · obtain ⟨outcome, ho⟩ := Option.isSome_iff_exists.1 hover
        rw [Phase.outcome?_eq_some_iff.1 ho, run_finished]
        exact .inr rfl

end Ceremony

namespace Call

variable {config : Config} {call : Call} {events : List Event}

/-- The control plane acknowledges the trigger of the call. -/
def Acknowledged (config : Config) (call : Call) (events : List Event) : Prop :=
  ∃ early effects, call.Meets config events (.triggering early) effects .acknowledged

/-- The call receives a complete result. -/
def Receives (config : Config) (call : Call) (events : List Event) : Prop :=
  ∃ effects payload result, call.Meets config events .waiting effects (.message payload) ∧
    Carries call.purpose payload result

theorem course_append {first : List Event} {phase : Phase} {effects : List Effect}
    (h : call.course config first = (phase, effects)) (second : List Event) :
    (call.course config (first ++ second)).1 =
      ((call.ceremony config).run phase second).1 := by
  cases hr : call.request config with
  | error e =>
    rw [course_of_error hr] at h ⊢
    obtain rfl : fail e = phase := (Prod.mk.inj h).1
    rw [fail, run_finished]
  | ok request =>
    simp only [course, hr, run_append, Prod.mk.injEq] at h ⊢
    rw [h.1]

/-- **How a call fails after its trigger has been acknowledged.** -/
theorem fail_of_acknowledged {e : Error} (hack : call.Acknowledged config events)
    (h : (call.course config events).1 = fail e) :
    ∃ effects,
      call.Meets config events .attaching effects .deadline ∧
          e = (call.ceremony config).subscribeError ∨
        call.Meets config events .waiting effects .deadline ∧ e = .timeout call.channel.name ∨
        call.Meets config events .waiting effects .ended ∧
          e = .channelClosed call.channel.name ∨
        call.Meets config events .attaching effects (.attachFailed e) := by
  obtain ⟨early, effects, before, after, rfl, hbefore⟩ := hack
  -- the phase after the answer, and the rest of the course from there
  obtain ⟨phase, hstep, hphase⟩ : ∃ phase,
      ((call.ceremony config).step (.triggering early) .acknowledged).1 = phase ∧
        phase.isAcknowledged = true := by
    cases early <;> exact ⟨_, rfl, rfl⟩
  have hrest (middle : List Event) : (call.course config (before ++ .acknowledged :: middle)).1 =
      ((call.ceremony config).run phase middle).1 := by
    rw [course_append hbefore, run_cons, hstep]
  rw [hrest] at h
  have hopen : phase.outcome? = none := by
    cases phase <;> first | rfl | cases hphase
  obtain ⟨middle, event, last, ending, rfl, hm⟩ := exists_last_move hopen h
  have hmeets {phase : Phase} (hq : ((call.ceremony config).run _ middle).1 = phase) :
      ∃ effects, call.Meets config (before ++ .acknowledged :: (middle ++ event :: last)) phase
        effects event :=
    ⟨(call.course config (before ++ .acknowledged :: middle)).2,
      before ++ .acknowledged :: middle, last, by simp, Prod.ext ((hrest middle).trans hq) rfl⟩
  have hlast := (call.ceremony config).run_isAcknowledged hphase middle
  generalize hq : ((call.ceremony config).run phase middle).1 = q at hm hlast
  obtain ⟨effects, hmeets⟩ := hmeets hq
  refine ⟨effects, ?_⟩
  cases hm with
  | attachFailed hp e =>
    cases q with
    | attaching => exact .inr (.inr (.inr hmeets))
    | subscribing => rcases hlast with h | h <;> cases h
    | opening => rcases hlast with h | h <;> cases h
    | _ => cases hp
  | attachingElapsed => exact .inl ⟨hmeets, rfl⟩
  | waitElapsed => exact .inr (.inl ⟨hmeets, rfl⟩)
  | closed => exact .inr (.inr (.inl ⟨hmeets, rfl⟩))
  -- the trigger has been answered before
  | subscribingElapsed => rcases hlast with h | h <;> cases h
  | refused early e => rcases hlast with h | h <;> cases h
  | triggerElapsed early => rcases hlast with h | h <;> cases h

/-- A ceremony that gives a result has received it. -/
theorem receives_of_course_eq_ok {result : CeremonyResult}
    (h : (call.course config events).1 = .finished (.returned (.ok result))) :
    call.Receives config events := by
  cases hr : call.request config with
  | error e =>
    rw [course_of_error hr] at h
    cases h
  | ok request =>
    have hcourse (events : List Event) : (call.course config events).1 =
        ((call.ceremony config).run (call.ceremony config).start.1 events).1 := by
      simp only [course, hr]
    rw [hcourse] at h
    obtain ⟨before, event, after, effects, rfl, hm⟩ :=
      exists_last_move (by unfold start; split <;> rfl) h
    generalize hq : ((call.ceremony config).run (call.ceremony config).start.1 before).1 = q at hm
    cases hm with
    | result hresult =>
      exact ⟨_, _, result, ⟨before, after, rfl, Prod.ext ((hcourse before).trans hq) rfl⟩,
        resultOf?_eq_some_iff.1 hresult⟩

/-- A call that has an error to tell, and has received no result, has a ceremony that failed. -/
theorem fail_of_told_error {e : Error} (h : call.told? config events = some (.error e))
    (hn : ¬ call.Receives config events) : (call.course config events).1 = fail e := by
  unfold told? at h
  split at h
  · next result hp =>
    cases result with
    | error other =>
      obtain rfl : other = e := Except.error.inj (Option.some.inj h)
      rw [hp, fail]
    | ok result =>
      exact absurd (receives_of_course_eq_ok hp) hn
  · cases h

end Call

/-- **Failures after the trigger.** A call whose trigger has been acknowledged, and which has an
error to tell without having received a complete result, has met one of three things while it was
waiting or was still being attached: the deadline, and then the outcome is unknown; the end of the
stream, and then it is not; or a refusal by the broker, whose error is told as it is. -/
theorem failure_after_acknowledged {config : Config} {call : Call} {events : List Event} {e : Error}
    (hack : call.Acknowledged config events) (htold : call.told? config events = some (.error e))
    (hn : ¬ call.Receives config events) :
    ∃ phase effects event, call.Meets config events phase effects event ∧
      (event = .deadline ∧ phase.isAcknowledged = true ∧ e.outcomeUnknown = true ∨
        event = .ended ∧ phase = .waiting ∧ e = .channelClosed call.channel.name ∧
          e.outcomeUnknown = false ∨
        event = .attachFailed e ∧ phase = .attaching) := by
  obtain ⟨effects, h⟩ := Call.fail_of_acknowledged hack (Call.fail_of_told_error htold hn)
  rcases h with ⟨hm, rfl⟩ | ⟨hm, rfl⟩ | ⟨hm, rfl⟩ | hm
  · exact ⟨_, effects, _, hm, .inl ⟨rfl, rfl, rfl⟩⟩
  · exact ⟨_, effects, _, hm, .inl ⟨rfl, rfl, rfl⟩⟩
  · exact ⟨_, effects, _, hm, .inr (.inl ⟨rfl, rfl, rfl, rfl⟩)⟩
  · exact ⟨_, effects, _, hm, .inr (.inr ⟨rfl, rfl⟩)⟩

/-- A payload without a result, and then nothing until the deadline. -/
theorem failure_after_acknowledged_of_heartbeat :
    ∃ phase effects event, Call.firstWallet.Meets .standard
        [.acknowledged, .attached, .message "heartbeat", .deadline] phase effects event ∧
      (event = .deadline ∧ phase.isAcknowledged = true ∧
          (Error.timeout "keygen:s1").outcomeUnknown = true ∨
        event = .ended ∧ phase = .waiting ∧
          Error.timeout "keygen:s1" = .channelClosed Call.firstWallet.channel.name ∧
          (Error.timeout "keygen:s1").outcomeUnknown = false ∨
        event = .attachFailed (.timeout "keygen:s1") ∧ phase = .attaching) := by
  have hnoise : resultOf? .keygen "heartbeat" = none := by decide +kernel
  refine failure_after_acknowledged ⟨false, [.notify], [], _, rfl, rfl⟩ ?_ ?_
  · have hstep : (Call.firstWallet.ceremony .standard).step .waiting (.message "heartbeat") =
        (.waiting, []) := by
      simp only [step, afterWait, Wait.step]
      rw [show (Call.firstWallet.ceremony .standard).channel.purpose = .keygen from rfl, hnoise]
    have hrun : ((Call.firstWallet.ceremony .standard).run .waiting
        [.message "heartbeat", .deadline]).1 = fail (.timeout "keygen:s1") := by
      rw [run_cons, hstep]
      rfl
    have hopened : Call.firstWallet.course .standard [.acknowledged, .attached] =
        (.waiting, [.notify, .subscribe]) := rfl
    have hcourse : (Call.firstWallet.course .standard
        [.acknowledged, .attached, .message "heartbeat", .deadline]).1 =
          fail (.timeout "keygen:s1") :=
      (Call.course_append hopened [.message "heartbeat", .deadline]).trans hrun
    rw [Call.told?, hcourse]
    rfl
  · rintro ⟨effects, payload, result, ⟨before, after, hsplit, -⟩, hcarries⟩
    have hmem : Event.message payload ∈
        [Event.acknowledged, .attached, .message "heartbeat", .deadline] := by
      rw [hsplit]
      simp
    obtain rfl : payload = "heartbeat" := by simpa using hmem
    exact absurd (resultOf?_eq_some_iff.2 hcarries)
      (by simp [Call.purpose, Call.firstWallet, hnoise])

/-- **An ended stream passes for a failure**: the trigger has been acknowledged, no result has been
received, and the error does not say that the outcome is unknown. -/
theorem not_outcomeUnknown_of_ended_stream :
    Call.firstWallet.Acknowledged Coordinator.standard.config [.acknowledged, .attached, .ended] ∧
      ¬ Call.firstWallet.Receives Coordinator.standard.config [.acknowledged, .attached, .ended] ∧
      Call.firstWallet.told? Coordinator.standard.config [.acknowledged, .attached, .ended] =
        some (.error (.channelClosed "keygen:s1")) ∧
      (Error.channelClosed "keygen:s1").outcomeUnknown = false := by
  refine ⟨⟨false, [.notify], [], _, rfl, rfl⟩, ?_, rfl, rfl⟩
  rintro ⟨effects, payload, result, ⟨before, after, hsplit, -⟩, -⟩
  have hmem : Event.message payload ∈ [Event.acknowledged, .attached, .ended] := by
    rw [hsplit]
    simp
  simp at hmem

end Custody
