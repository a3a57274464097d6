import Custody.Client.ControlPlane
import Custody.Proofs.Ceremony.Order
import Custody.Proofs.Session.Request
import Custody.Proofs.Wallet.Basic
/-!
# Triggers of calls

The request that a call sends is made for the call's own session, with the parties and the threshold
of its configuration; whoever reads it off the wire and works out on which channel the result
belongs comes to the channel that the call listens on (`Call.IsTrigger`,
`Call.isTrigger_of_request`).

* `Call.exists_isTrigger_of_notify`: a call that asks for its trigger has such a request.
* `Client.ControlPlane.ofTree_ofText_body`: what a control plane is posted says what the request is.
-/

namespace Custody

open Ceremony Json

/-- The coordinator with a configuration has that configuration. -/
theorem Coordinator.config_of_ofConfig {config : Config} {coordinator : Coordinator}
    (h : Coordinator.ofConfig config = .ok coordinator) : coordinator.config = config := by
  unfold Coordinator.ofConfig at h
  split at h
  · cases h
  · cases h
    rfl

/-- The wallet program runs ceremonies among the parties that its user names. -/
theorem Wallet.Options.config_of_coordinator {options : Wallet.Options} {coordinator : Coordinator}
    (h : options.coordinator = .ok coordinator) :
    coordinator.config.parties = options.parties ∧
      coordinator.config.threshold = options.threshold := by
  unfold Options.coordinator at h
  obtain ⟨given, hgiven, h⟩ := bind_eq_ok_iff.1 h
  have hoptions : given.parties = options.parties ∧ given.threshold = options.threshold := by
    have hof := mapError_eq_ok_iff.1 hgiven
    simp only [Config.ofParties] at hof
    split at hof
    · cases hof
    · cases hof
      exact ⟨rfl, rfl⟩
  rw [Coordinator.config_of_ofConfig (mapError_eq_ok_iff.1 h)]
  exact hoptions

/-- What is posted to a control plane says what the request is. -/
theorem Client.ControlPlane.ofTree_ofText_body {client : ControlPlane} {peer : Answerer}
    {request : ActionRequest} {post : Post} (h : client.post? peer request = some post) :
    ActionRequest.ofTree (.ofText post.body) = .ok request := by
  obtain ⟨target, -, rfl⟩ := Option.map_eq_some_iff.1 h
  exact request.ofTree_ofText_render

namespace Call

/-- `call.IsTrigger config request`: the request starts just the ceremony that the call waits
for. -/
structure IsTrigger (config : Config) (call : Call) (request : ActionRequest) : Prop where
  session : request.session = call.session
  parties : request.parties = config.parties
  threshold : request.threshold = config.threshold
  nodup : request.parties.Nodup
  one_le : 1 ≤ request.threshold.toNat
  le_length : request.threshold.toNat ≤ request.parties.length
  /-- A key generation is told of no share and no digest. -/
  keygen : ∀ session, call = .createWallet session →
    request.action = .initKeygen ∧ request.share = none ∧ request.hash = none
  /-- A signing is told of the caller's share and digest. -/
  sign : ∀ session share hash,
    (call = .signRaw session share hash ∨ ∃ address, call = .sign session share hash address) →
    request.action = .initSign ∧ request.share = some share ∧ request.hash = some hash ∧
      hash.length = 32
  /-- Whoever reads the text of the request has the request. -/
  wire : ActionRequest.ofTree (.ofText request.render) = .ok request
  /-- The channel that the request names is the one that the call's ceremony listens on. -/
  channel : ⟨request.action.purpose, request.session⟩ = (call.ceremony config).channel

variable {config : Config} {call : Call} {request : ActionRequest}

/-- The session of a call is among the parties of its configuration. -/
theorem scope_eq_ok {session : Session} (h : call.scope config = .ok session) :
    session.id = call.session ∧ session.parties = config.parties ∧
      session.threshold = config.threshold := by
  unfold scope Session.ofParties at h
  split at h
  · cases h
  · cases h
    exact ⟨rfl, rfl, rfl⟩

theorem signRequest_eq_ok {share hash : Bytes}
    (h : call.signRequest config share hash = .ok request) :
    hash.length = hashLength ∧
      ∃ session, call.scope config = .ok session ∧ request = .sign session share hash := by
  unfold signRequest at h
  split at h
  · cases h
  · next hl =>
    cases hs : call.scope config with
    | error e =>
      rw [hs] at h
      cases h
    | ok session =>
      rw [hs] at h
      cases h
      exact ⟨Decidable.not_not.1 hl, session, rfl, rfl⟩

/-- A request that is made for the session of a call is the call's trigger. -/
theorem isTrigger_of_scope {session : Session} (hs : call.scope config = .ok session)
    (hid : request.session = session.id) (hparties : request.parties = session.parties)
    (hthreshold : request.threshold = session.threshold)
    (hpurpose : request.action.purpose = call.purpose)
    (hkeygen : ∀ session, call = .createWallet session →
      request.action = .initKeygen ∧ request.share = none ∧ request.hash = none)
    (hsign : ∀ session share hash,
      (call = .signRaw session share hash ∨ ∃ address, call = .sign session share hash address) →
      request.action = .initSign ∧ request.share = some share ∧ request.hash = some hash ∧
        hash.length = 32) :
    call.IsTrigger config request := by
  obtain ⟨hcall, hall, hmany⟩ := scope_eq_ok hs
  obtain ⟨-, hnodup, hone, hle⟩ := session.valid
  exact {
    session := hid.trans hcall
    parties := hparties.trans hall
    threshold := hthreshold.trans hmany
    nodup := hparties ▸ hnodup
    one_le := hthreshold ▸ hone
    le_length := by
      rw [hthreshold, hparties]
      exact hle
    keygen := hkeygen
    sign := hsign
    wire := request.ofTree_ofText_render
    channel := by
      rw [hpurpose, hid, hcall]
      rfl }

/-- **The request of a call is its trigger.** -/
theorem isTrigger_of_request (h : call.request config = .ok request) :
    call.IsTrigger config request := by
  cases call with
  | createWallet id =>
    cases hs : (Call.createWallet id).scope config with
    | error e => simp [Call.request, hs, Functor.map, Except.map] at h
    | ok session =>
      obtain rfl : ActionRequest.keygen session = request := by
        simpa [Call.request, hs, Functor.map, Except.map] using h
      exact isTrigger_of_scope hs rfl rfl rfl rfl (fun _ _ => ⟨rfl, rfl, rfl⟩) (by simp)
  | signRaw id share hash =>
    obtain ⟨hl, session, hs, rfl⟩ := signRequest_eq_ok h
    refine isTrigger_of_scope hs rfl rfl rfl rfl (by simp) fun _ _ _ hcall => ?_
    obtain ⟨-, rfl, rfl⟩ : id = _ ∧ share = _ ∧ hash = _ := by simpa using hcall
    exact ⟨rfl, rfl, rfl, hl⟩
  | sign id share hash address =>
    obtain ⟨hl, session, hs, rfl⟩ := signRequest_eq_ok h
    refine isTrigger_of_scope hs rfl rfl rfl rfl (by simp) fun _ _ _ hcall => ?_
    obtain ⟨-, rfl, rfl⟩ : id = _ ∧ share = _ ∧ hash = _ := by simpa using hcall
    exact ⟨rfl, rfl, rfl, hl⟩

/-- **A call that asks for its trigger has one.** -/
theorem exists_isTrigger_of_notify {events : List Event} (h : .notify ∈ call.asked config events) :
    ∃ request, call.request config = .ok request ∧ call.IsTrigger config request := by
  cases hr : call.request config with
  | error e =>
    rw [asked, course_of_error hr] at h
    cases h
  | ok request => exact ⟨request, rfl, isTrigger_of_request hr⟩

end Call

end Custody
