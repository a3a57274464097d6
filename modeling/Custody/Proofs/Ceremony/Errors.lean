import Custody.Client.SocketBroker
import Custody.Proofs.Ceremony.Outcome
import Custody.Proofs.Hub.Receiver
import Custody.Proofs.Session.Id
/-!
# The errors of calls

Of the nine kinds of errors a call can end with a few only, whatever the control plane answers and
whatever the cluster publishes (`Call.failures`). An error of the control plane is told as a failed
trigger, and one of the broker as it is; a digest of a wrong length is found before anything is
sent; and a signature that cannot be used has been received before.

* `Ceremony.kind_of_fail`: an error that ends a ceremony is of one of three kinds, or the broker's.
* `Ceremony.purpose_of_returned`: a result is one for the ceremony's purpose, so that no call finds
  a result of the wrong kind.
* `Call.mem_failures_of_told`, `Call.toldAt_invalidConfig_iff`: the errors of calls.
-/

namespace Custody

open Ceremony

/-! ## Kinds of errors -/

/-- What goes wrong, without the text that says more. -/
inductive Error.Kind
  | invalidConfig
  | triggerFailed
  | timeout
  | channelClosed
  | malformedSignature
  | recoveryFailed
  | broker
  | transport
  | serialization
  deriving DecidableEq, Repr

/-- The kind of an error. -/
def Error.kind : Error → Kind
  | invalidConfig _ => .invalidConfig
  | triggerFailed _ => .triggerFailed
  | timeout _ => .timeout
  | channelClosed _ => .channelClosed
  | malformedSignature _ => .malformedSignature
  | recoveryFailed _ => .recoveryFailed
  | broker _ => .broker
  | transport _ => .transport
  | serialization _ => .serialization

/-- The kinds of errors that end a ceremony. -/
def Error.Kind.ceremonial : List Error.Kind :=
  [.triggerFailed, .broker, .channelClosed, .timeout]

/-! ## Refusals -/

/-- What carries results to a caller. -/
inductive Carrier
  /-- The hub itself. -/
  | memory
  /-- A service behind sockets. -/
  | sockets (client : Client.SocketBroker)

/-- A carrier refuses a subscription with this error, in whatever state the hub is and whatever peer
the socket is opened at. -/
inductive Carrier.Refuses : Carrier → Error → Prop
  | memory {hub : Hub} {key : ChannelKey} {e : BrokerError}
    (h : hub.subscribe key.name = .error e) : Refuses .memory e.toError
  | sockets {client : Client.SocketBroker} (peer : Client.FrameSender) (key : ChannelKey)
    {e : Error} (h : (client.subscribe peer key).1 = .error e) : Refuses (.sockets client) e

/-- The hub takes the channel of every session. -/
theorem Hub.subscribe_ne_error (hub : Hub) (key : ChannelKey) (e : BrokerError) :
    hub.subscribe key.name ≠ .error e := by
  obtain ⟨attached, h⟩ := hub.exists_subscribe key.valid_name
  rw [h]
  nofun

namespace Carrier.Refuses

theorem ne_memory {carrier : Carrier} {e : Error} (h : carrier.Refuses e) : carrier ≠ .memory := by
  rintro rfl
  cases h with
  | @memory hub key fault h => exact hub.subscribe_ne_error key fault h

/-- A refusal is an error of the broker. -/
theorem kind_eq {carrier : Carrier} {e : Error} (h : carrier.Refuses e) : e.kind = .broker := by
  cases h with
  | memory h => rfl
  | sockets peer key h =>
    unfold Client.SocketBroker.subscribe at h
    split at h
    · exact Except.error.inj h ▸ rfl
    · split at h
      · exact Except.error.inj h ▸ rfl
      · split at h
        · exact Except.error.inj h ▸ rfl
        · cases h

end Carrier.Refuses

/-! ## Ceremonies -/

/-- A payload that carries a result for a purpose carries one of that purpose. -/
theorem Carries.purpose_eq {purpose : Purpose} {payload : String} {result : CeremonyResult}
    (h : Carries purpose payload result) : result.purpose = purpose := by
  obtain ⟨envelope, -, h⟩ := h
  unfold Envelope.completion at h
  split at h <;> split at h
  · split at h <;> cases h
    rfl
  · cases h
  · split at h <;> cases h
    rfl
  · cases h

namespace Ceremony

variable {c : Ceremony} {phase : Phase} {events : List Event}

/-- **An error that ends a ceremony** says that the trigger has failed, that the stream has ended or
that time has run out, or it is that of a subscription that was refused. -/
theorem kind_of_fail {e : Error} (hp : phase.outcome? = none)
    (h : (c.run phase events).1 = fail e) :
    e.kind ∈ [.triggerFailed, .channelClosed, .timeout] ∨ .attachFailed e ∈ events := by
  obtain ⟨before, event, after, effects, rfl, hm⟩ := exists_last_move hp h
  generalize (c.run phase before).1 = q at hm
  cases hm with
  | attachFailed => exact .inr (by simp)
  | refused | triggerElapsed => exact .inl (.head _)
  | closed => exact .inl (.tail _ (.head _))
  | subscribingElapsed | attachingElapsed | waitElapsed =>
    exact .inl (.tail _ (.tail _ (.head _)))

/-- **A ceremony gives a result of its own purpose.** -/
theorem purpose_of_returned {result : CeremonyResult} (hp : phase.outcome? = none)
    (h : (c.run phase events).1 = .finished (.returned (.ok result))) :
    result.purpose = c.channel.purpose := by
  obtain ⟨before, event, after, effects, rfl, hm⟩ := exists_last_move hp h
  generalize (c.run phase before).1 = q at hm
  cases hm with
  | result hresult => exact (resultOf?_eq_some_iff.1 hresult).purpose_eq

theorem outcome?_start (c : Ceremony) : c.start.1.outcome? = none := by
  unfold start
  split <;> rfl

end Ceremony

/-! ## Calls -/

namespace Call

/-- The digest that is to be signed has a wrong length. -/
def HasBadDigest (call : Call) : Prop :=
  ∃ hash, call.digest? = some hash ∧ hash.length ≠ hashLength

instance (call : Call) : Decidable call.HasBadDigest :=
  match h : call.digest? with
  | none => .isFalse fun ⟨_, hd, _⟩ => Option.some_ne_none _ (hd.symm.trans h)
  | some hash => decidable_of_iff (hash.length ≠ hashLength)
      ⟨fun hl => ⟨hash, h, hl⟩, fun ⟨_, hd, hl⟩ => Option.some.inj (h.symm.trans hd) ▸ hl⟩

/-- The kinds of errors that a call finds in a result of the right kind. -/
def flaws : Call → List Error.Kind
  | createWallet _ | signRaw _ _ _ => []
  | sign _ _ _ _ => [.malformedSignature, .recoveryFailed]

/-- The kinds of errors with which a call may fail. -/
def failures (call : Call) : List Error.Kind :=
  if call.HasBadDigest then [.invalidConfig] else Error.Kind.ceremonial ++ call.flaws

/-- What the caller is told who calls at this moment. -/
def toldAt (clock : Clock) (now : Nat) (config : Config) (call : Call) (events : List Event) :
    Option (Except Error Answer) :=
  match call.accept clock now config with
  | .error e => some (.error e)
  | .ok _ => call.told? config events

/-- `call.MayTell carrier received result`: what a caller may be told, where results come over the
carrier and `received` says that one has come. -/
structure MayTell (carrier : Carrier) (call : Call) (received : Prop)
    (result : Except Error Answer) : Prop where
  kind : ∀ e, result = .error e → e.kind ∈ call.failures
  contained : ∀ e, result = .error e → e.kind ≠ .transport ∧ e.kind ≠ .serialization
  flawed : ∀ e, result = .error e → e.kind ∈ [.malformedSignature, .recoveryFailed] → received
  broker : carrier = .memory → ∀ e, result = .error e → e.kind ≠ .broker
  invalidConfig : (∃ reason, result = .error (.invalidConfig reason)) ↔ call.HasBadDigest

variable {clock : Clock} {now : Nat} {config : Config} {call : Call} {events : List Event}

/-! ### Before a call -/

/-- A call with a digest of a wrong length is refused. -/
theorem HasBadDigest.accept (h : call.HasBadDigest) (clock : Clock) (now : Nat) (config : Config) :
    ∃ reason, call.accept clock now config = .error (.invalidConfig reason) := by
  obtain ⟨hash, hd, hl⟩ := h
  cases call with
  | createWallet session => cases hd
  | signRaw session share digest =>
    cases hd
    exact ⟨_, by rw [Call.accept, request, signRequest, if_pos hl]; rfl⟩
  | sign session share digest address =>
    cases hd
    exact ⟨_, by rw [Call.accept, request, signRequest, if_pos hl]; rfl⟩

/-- **Every other call is accepted**: with a configuration that is fit for use its session is valid,
and the clock can tell its deadline. -/
theorem accept_of_valid (hv : config.Valid) (hclock : now + Config.maxTimeout ≤ clock.last)
    (h : ¬ call.HasBadDigest) :
    ∃ request, call.request config = .ok request ∧
      call.accept clock now config = .ok request := by
  obtain ⟨request, hr⟩ := request_of_valid hv fun hash hd =>
    Decidable.byContradiction fun hl => h ⟨hash, hd, hl⟩
  exact ⟨request, hr, by rw [accept, hr, Clock.deadline_of_valid hv hclock]; rfl⟩

/-! ### After a call -/

/-- A signature that cannot be used is malformed, or nobody is known to have made it. -/
theorem kind_of_ofDer {der digest : Bytes} {expected : String} {e : Error}
    (h : CanonicalSignature.ofDer der digest expected = .error e) :
    e.kind ∈ [.malformedSignature, .recoveryFailed] := by
  unfold CanonicalSignature.ofDer at h
  split at h
  · exact Except.error.inj h ▸ .head _
  · split at h
    · exact Except.error.inj h ▸ .head _
    · split at h
      · exact Except.error.inj h ▸ .tail _ (.head _)
      · cases h

/-- A result of the right kind is refused for a flaw only. -/
theorem kind_of_conclude {result : CeremonyResult} (hp : result.purpose = call.purpose) {e : Error}
    (h : call.conclude result = .error e) : e.kind ∈ call.flaws := by
  cases call with
  | createWallet session =>
    cases result with
    | keygen key => cases h
    | sign raw => cases hp
  | signRaw session share hash =>
    cases result with
    | keygen key => cases hp
    | sign raw => cases h
  | sign session share hash address =>
    cases result with
    | keygen key => cases hp
    | sign raw =>
      cases hd : CanonicalSignature.ofDer raw.der hash address with
      | ok sig =>
        simp [conclude, CeremonyResult.expectSignature, bind, Except.bind, hd, Functor.map,
          Except.map] at h
      | error other =>
        obtain rfl : other = e := by
          simpa [conclude, CeremonyResult.expectSignature, bind, Except.bind, hd, Functor.map,
            Except.map] using h
        exact kind_of_ofDer hd

/-! ### The errors -/

theorem course_of_request {request : ActionRequest} (h : call.request config = .ok request) :
    (call.course config events).1 =
      ((call.ceremony config).run (call.ceremony config).start.1 events).1 := by
  simp only [course, h]

/-- A call gives a result of its own purpose. -/
theorem purpose_of_course {result : CeremonyResult}
    (h : (call.course config events).1 = .finished (.returned (.ok result))) :
    result.purpose = call.purpose := by
  cases hr : call.request config with
  | error e =>
    rw [course_of_error hr] at h
    cases h
  | ok request =>
    rw [course_of_request hr] at h
    exact purpose_of_returned (outcome?_start _) h

/-- An error that a caller is told is that of the ceremony, or one that is found in its result. -/
theorem told_error_cases {e : Error} (h : call.told? config events = some (.error e)) :
    (call.course config events).1 = fail e ∨
      ∃ result, (call.course config events).1 = .finished (.returned (.ok result)) ∧
        call.conclude result = .error e := by
  unfold told? at h
  split at h
  · next result hp =>
    cases result with
    | error other =>
      obtain rfl : other = e := Except.error.inj (Option.some.inj h)
      exact .inl hp
    | ok result => exact .inr ⟨result, hp, Option.some.inj h⟩
  · cases h

/-- **A caller whose call has been accepted** is told an error of the ceremony, or a flaw of the
result that has been received. -/
theorem kind_of_told {e : Error} {request : ActionRequest} (hr : call.request config = .ok request)
    (h : call.told? config events = some (.error e)) :
    e.kind ∈ [.triggerFailed, .channelClosed, .timeout] ∨ .attachFailed e ∈ events ∨
      e.kind ∈ call.flaws ∧ call.Receives config events := by
  rcases told_error_cases h with hfail | ⟨result, hcourse, hconclude⟩
  · rw [course_of_request hr] at hfail
    rcases kind_of_fail (outcome?_start _) hfail with hkind | hrefused
    · exact .inl hkind
    · exact .inr (.inl hrefused)
  · exact .inr (.inr ⟨kind_of_conclude (purpose_of_course hcourse) hconclude,
      receives_of_course_eq_ok hcourse⟩)

theorem flaws_subset (call : Call) : call.flaws ⊆ [.malformedSignature, .recoveryFailed] := by
  cases call <;> simp [flaws]

/-- No call fails with an error of the control plane itself, or for a result of the wrong kind. -/
theorem ne_of_mem_failures {kind : Error.Kind} (h : kind ∈ call.failures) :
    kind ≠ .transport ∧ kind ≠ .serialization := by
  have hall : ∀ kind ∈ .invalidConfig :: (Error.Kind.ceremonial ++
      [.malformedSignature, .recoveryFailed]), kind ≠ .transport ∧ kind ≠ .serialization := by
    decide
  refine hall kind ?_
  unfold failures at h
  split at h
  · exact List.mem_singleton.1 h ▸ .head _
  · rcases List.mem_append.1 h with h | h
    · exact .tail _ (List.mem_append_left _ h)
    · exact .tail _ (List.mem_append_right _ (call.flaws_subset h))

/-- A call that may fail with an invalid configuration has a digest of a wrong length. -/
theorem hasBadDigest_of_mem_failures (h : .invalidConfig ∈ call.failures) : call.HasBadDigest := by
  unfold failures at h
  split at h
  · assumption
  · rcases List.mem_append.1 h with h | h
    · exact absurd h (by decide)
    · exact absurd (call.flaws_subset h) (by decide)

variable {carrier : Carrier} {received : Prop} {result : Except Error Answer}

/-- The kinds decide, but for a digest of a wrong length: that must be told. -/
theorem MayTell.of_kind
    (hkind : ∀ e, result = .error e → e.kind ∈ call.failures ∧
      (e.kind ∈ [.malformedSignature, .recoveryFailed] → received) ∧
      (carrier = .memory → e.kind ≠ .broker))
    (hbad : call.HasBadDigest → ∃ reason, result = .error (.invalidConfig reason)) :
    call.MayTell carrier received result where
  kind e he := (hkind e he).1
  contained e he := ne_of_mem_failures (hkind e he).1
  flawed e he := (hkind e he).2.1
  broker hmemory e he := (hkind e he).2.2 hmemory
  invalidConfig := ⟨fun ⟨_, he⟩ => hasBadDigest_of_mem_failures (hkind _ he).1, hbad⟩

/-- What ends a ceremony without the broker may be told by every call that is accepted. -/
theorem MayTell.of_mem {e : Error} (hgood : ¬ call.HasBadDigest)
    (h : e.kind ∈ [.triggerFailed, .channelClosed, .timeout]) :
    call.MayTell carrier received (.error e) := by
  have hall : ∀ kind ∈ [Error.Kind.triggerFailed, .channelClosed, .timeout],
      kind ∈ Error.Kind.ceremonial ∧ kind ∉ [.malformedSignature, .recoveryFailed] ∧
        kind ≠ .broker := by decide
  refine .of_kind (fun other he => ?_) fun hbad => absurd hbad hgood
  obtain rfl := Except.error.inj he
  obtain ⟨hmem, hnot, hne⟩ := hall _ h
  rw [failures, if_neg hgood]
  exact ⟨List.mem_append_left _ hmem, fun hflaw => absurd hflaw hnot, fun _ => hne⟩

/-- **What a caller may be told** of a call that is made in time. -/
theorem mayTell_of_toldAt (hv : config.Valid) (hclock : now + Config.maxTimeout ≤ clock.last)
    (hevents : ∀ e, .attachFailed e ∈ events → carrier.Refuses e)
    (h : call.toldAt clock now config events = some result) :
    call.MayTell carrier (call.Receives config events) result := by
  by_cases hbad : call.HasBadDigest
  · obtain ⟨reason, haccept⟩ := hbad.accept clock now config
    rw [toldAt, haccept] at h
    obtain rfl := Option.some.inj h
    refine .of_kind (fun e he => ?_) fun _ => ⟨reason, rfl⟩
    obtain rfl := Except.error.inj he
    rw [failures, if_pos hbad]
    exact ⟨.head _, by simp [Error.kind], fun _ => nofun⟩
  · obtain ⟨request, hr, haccept⟩ := accept_of_valid hv hclock hbad
    rw [toldAt, haccept] at h
    cases result with
    | ok answer => exact .of_kind nofun fun hbad' => absurd hbad' hbad
    | error e =>
      rcases kind_of_told hr h with hkind | hrefused | ⟨hflaw, hreceives⟩
      · exact .of_mem hbad hkind
      · have hrefusal := hevents e hrefused
        refine .of_kind (fun other he => ?_) fun hbad' => absurd hbad' hbad
        obtain rfl := Except.error.inj he
        rw [failures, if_neg hbad, hrefusal.kind_eq]
        exact ⟨by simp [Error.Kind.ceremonial], by simp, fun hmemory =>
          absurd hmemory hrefusal.ne_memory⟩
      · refine .of_kind (fun other he => ?_) fun hbad' => absurd hbad' hbad
        obtain rfl := Except.error.inj he
        rw [failures, if_neg hbad]
        refine ⟨List.mem_append_right _ hflaw, fun _ => hreceives, fun _ hbroker => ?_⟩
        rw [hbroker] at hflaw
        exact absurd (call.flaws_subset hflaw) (by decide)

/-- A call with a digest of a wrong length is told so, whatever happens. -/
theorem toldAt_of_hasBadDigest (h : call.HasBadDigest) :
    ∃ reason, call.toldAt clock now config events = some (.error (.invalidConfig reason)) := by
  obtain ⟨reason, haccept⟩ := h.accept clock now config
  exact ⟨reason, by rw [toldAt, haccept]⟩

/-- A caller is told an answer exactly if the call is accepted, and its ceremony comes to a result
that the answer is made of. -/
theorem toldAt_eq_ok_iff {answer : Answer} :
    call.toldAt clock now config events = some (.ok answer) ↔
      (∃ request, call.accept clock now config = .ok request) ∧
        ∃ result, (call.course config events).1 = .finished (.returned (.ok result)) ∧
          call.conclude result = .ok answer := by
  constructor
  · intro h
    unfold toldAt told? at h
    split at h
    · cases h
    · next request haccept =>
      split at h
      · next result hcourse =>
        cases result with
        | error e => cases h
        | ok result => exact ⟨⟨request, haccept⟩, result, hcourse, Option.some.inj h⟩
      · cases h
  · rintro ⟨⟨request, haccept⟩, result, hcourse, hconclude⟩
    simp only [toldAt, haccept, told?, hcourse]
    exact congrArg some hconclude

end Call

end Custody
