import Custody.Ceremony.Basic
/-!
# Runs of ceremonies

What one event can do to a ceremony (`Ceremony.Move`), and what follows for whole runs.

* `Ceremony.step_eq`: a step is a move, or it changes nothing and asks for nothing.
* `Ceremony.run_eq_or_move`: a run changes nothing, or it has a first move.
* `Ceremony.requests_run`: what a run asks the outside for is a beginning of what the phase it
  starts in still allows. So nothing is asked for twice.
-/

namespace Custody.Ceremony

/-! ## Moves -/

/-- The subscription is open in this phase. -/
def Phase.isAttached : Phase → Bool
  | .triggering early => early
  | .waiting => true
  | _ => false

/-- `c.Move phase event next effects`: in this phase the event leads to the next one and makes the
ceremony ask for the effects. -/
inductive Move (c : Ceremony) : Phase → Event → Phase → List Effect → Prop
  | attachedEarly : Move c .subscribing .attached (.triggering true) [.notify]
  | attachedLate : Move c .attaching .attached .waiting []
  | attachedAlone : Move c .opening .attached .waiting []
  | attachFailed {phase : Phase} (h : phase.awaitsAttachment = true) (e : Error) :
    Move c phase (.attachFailed e) (fail e) []
  | subscribingElapsed : Move c .subscribing .deadline (fail c.subscribeError) []
  | attachingElapsed : Move c .attaching .deadline (fail c.subscribeError) []
  | acknowledgedEarly : Move c (.triggering true) .acknowledged .waiting []
  | acknowledgedLate : Move c (.triggering false) .acknowledged .attaching [.subscribe]
  | refused (early : Bool) (e : Error) :
    Move c (.triggering early) (.refused e) (fail (c.triggerError e.message)) (releaseIf early)
  | triggerElapsed (early : Bool) :
    Move c (.triggering early) .deadline (fail (c.triggerError "deadline elapsed"))
      (releaseIf early)
  | result {payload : String} {result : CeremonyResult}
    (h : resultOf? c.channel.purpose payload = some result) :
    Move c .waiting (.message payload) (.finished (.returned (.ok result))) [.release]
  | closed : Move c .waiting .ended (fail (.channelClosed c.channel.name)) [.release]
  | waitElapsed : Move c .waiting .deadline (fail (.timeout c.channel.name)) [.release]
  | cancelled {phase : Phase} (h : phase.outcome?.isNone = true) :
    Move c phase .cancelled (.finished .cancelled) (releaseIf phase.isAttached)

theorem Move.step_eq {c : Ceremony} {phase next : Phase} {event : Event} {effects : List Effect}
    (h : c.Move phase event next effects) : c.step phase event = (next, effects) := by
  cases h with
  | attachFailed h e => cases phase <;> first | rfl | cases h
  | refused early e => cases early <;> rfl
  | triggerElapsed early => cases early <;> rfl
  | result h => simp [step, afterWait, Wait.step, h, Wait.outcome]
  | cancelled h =>
    cases phase with
    | triggering early => cases early <;> rfl
    | finished outcome => cases h
    | _ => rfl
  | _ => rfl

/-- **A step is a move, or it changes nothing.** -/
theorem step_eq (c : Ceremony) (phase : Phase) (event : Event) :
    c.step phase event = (phase, []) ∨
      c.Move phase event (c.step phase event).1 (c.step phase event).2 := by
  by_cases hc : event = .cancelled ∧ phase.outcome?.isNone = true
  · obtain ⟨rfl, hn⟩ := hc
    rw [(Move.cancelled (c := c) hn).step_eq]
    exact .inr (.cancelled hn)
  cases phase with
  | subscribing =>
    cases event with
    | attached => exact .inr .attachedEarly
    | attachFailed e => exact .inr (.attachFailed rfl e)
    | deadline => exact .inr .subscribingElapsed
    | cancelled => exact absurd ⟨rfl, rfl⟩ hc
    | _ => exact .inl rfl
  | triggering early =>
    cases event with
    | acknowledged =>
      cases early with
      | true => exact .inr .acknowledgedEarly
      | false => exact .inr .acknowledgedLate
    | refused e =>
      rw [(Move.refused (c := c) early e).step_eq]
      exact .inr (.refused early e)
    | deadline =>
      rw [(Move.triggerElapsed (c := c) early).step_eq]
      exact .inr (.triggerElapsed early)
    | cancelled => exact absurd ⟨rfl, rfl⟩ hc
    | _ => exact .inl (by cases early <;> rfl)
  | attaching =>
    cases event with
    | attached => exact .inr .attachedLate
    | attachFailed e => exact .inr (.attachFailed rfl e)
    | deadline => exact .inr .attachingElapsed
    | cancelled => exact absurd ⟨rfl, rfl⟩ hc
    | _ => exact .inl rfl
  | opening =>
    cases event with
    | attached => exact .inr .attachedAlone
    | attachFailed e => exact .inr (.attachFailed rfl e)
    | cancelled => exact absurd ⟨rfl, rfl⟩ hc
    | _ => exact .inl rfl
  | waiting =>
    cases event with
    | message payload =>
      cases hr : resultOf? c.channel.purpose payload with
      | none => exact .inl (by simp [step, afterWait, Wait.step, hr])
      | some result =>
        rw [(Move.result (c := c) hr).step_eq]
        exact .inr (.result hr)
    | ended => exact .inr .closed
    | deadline => exact .inr .waitElapsed
    | cancelled => exact absurd ⟨rfl, rfl⟩ hc
    | _ => exact .inl rfl
  | finished outcome => exact .inl rfl

/-! ## Runs -/

theorem run_cons (c : Ceremony) (phase : Phase) (event : Event) (rest : List Event) :
    c.run phase (event :: rest) =
      ((c.run (c.step phase event).1 rest).1,
        (c.step phase event).2 ++ (c.run (c.step phase event).1 rest).2) :=
  rfl

theorem run_append (c : Ceremony) (phase : Phase) (first second : List Event) :
    c.run phase (first ++ second) =
      ((c.run (c.run phase first).1 second).1,
        (c.run phase first).2 ++ (c.run (c.run phase first).1 second).2) := by
  induction first generalizing phase with
  | nil => rfl
  | cons event rest ih => simp [run_cons, ih]

theorem step_finished (c : Ceremony) (outcome : Outcome) (event : Event) :
    c.step (.finished outcome) event = (.finished outcome, []) :=
  rfl

/-- Nothing happens to a ceremony that is over. -/
theorem run_finished (c : Ceremony) (outcome : Outcome) (events : List Event) :
    c.run (.finished outcome) events = (.finished outcome, []) := by
  induction events with
  | nil => rfl
  | cons event rest ih => rw [run_cons, step_finished, ih]; rfl

/-- `c.FirstMove phase events before event rest next effects`: of the events, this one is the first
that moves the ceremony on. -/
structure FirstMove (c : Ceremony) (phase : Phase) (events : List Event) (before : List Event)
    (event : Event) (rest : List Event) (next : Phase) (effects : List Effect) : Prop where
  split : events = before ++ event :: rest
  idle : c.run phase before = (phase, [])
  move : c.Move phase event next effects
  run : c.run phase events = ((c.run next rest).1, effects ++ (c.run next rest).2)

/-- **A run changes nothing, or it has a first move.** -/
theorem run_eq_or_move (c : Ceremony) (phase : Phase) (events : List Event) :
    c.run phase events = (phase, []) ∨
      ∃ before event rest next effects,
        c.FirstMove phase events before event rest next effects := by
  induction events with
  | nil => exact .inl rfl
  | cons event events ih =>
    rcases c.step_eq phase event with hs | hm
    · have hrun : c.run phase (event :: events) = c.run phase events := by
        rw [run_cons, hs]; rfl
      rcases ih with ih | ⟨before, first, rest, next, effects, h⟩
      · exact .inl (hrun.trans ih)
      · refine .inr ⟨event :: before, first, rest, next, effects, ?_, ?_, h.move, hrun.trans h.run⟩
        · rw [h.split, List.cons_append]
        · rw [run_cons, hs, h.idle]; rfl
    · exact .inr ⟨[], event, events, _, _, rfl, rfl, hm, run_cons c phase event events⟩

/-! ## Requests -/

/-- What is asked of the outside: all but releases. -/
def requests (effects : List Effect) : List Effect :=
  effects.filter (· ≠ .release)

@[simp] theorem requests_append (first second : List Effect) :
    requests (first ++ second) = requests first ++ requests second :=
  List.filter_append ..

@[simp] theorem requests_releaseIf (early : Bool) : requests (releaseIf early) = [] := by
  cases early <;> rfl

theorem count_requests {effect : Effect} {effects : List Effect} (h : effect ≠ .release) :
    (requests effects).count effect = effects.count effect := by
  simp [requests, List.count_filter, h]

/-- What a ceremony may still ask of the outside, in order. -/
def Phase.remaining : Phase → List Effect
  | .subscribing => [.notify]
  | .triggering false => [.subscribe]
  | _ => []

theorem Move.requests_append_remaining {c : Ceremony} {phase next : Phase} {event : Event}
    {effects : List Effect} (h : c.Move phase event next effects) :
    requests effects ++ next.remaining <+: phase.remaining := by
  cases h with
  | attachedEarly => exact List.prefix_rfl
  | acknowledgedLate => exact List.prefix_rfl
  | refused early e => simp [fail, Phase.remaining]
  | triggerElapsed early => simp [fail, Phase.remaining]
  | cancelled h => simp [Phase.remaining]
  | _ => exact List.nil_prefix

/-- **What a run asks for, and what its last phase still allows, is a beginning of what its first
phase allows.** -/
theorem requests_run (c : Ceremony) (phase : Phase) (events : List Event) :
    requests (c.run phase events).2 ++ (c.run phase events).1.remaining <+: phase.remaining := by
  induction events generalizing phase with
  | nil => exact List.prefix_rfl
  | cons event rest ih =>
    have hrest := ih (c.step phase event).1
    rw [run_cons, requests_append, List.append_assoc]
    rcases c.step_eq phase event with hs | hm
    · rw [hs] at hrest ⊢
      exact hrest
    · exact ((List.prefix_append_right_inj _).2 hrest).trans hm.requests_append_remaining

end Custody.Ceremony
