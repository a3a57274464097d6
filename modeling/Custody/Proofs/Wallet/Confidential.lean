import Custody.Proofs.Rehearsal.Shares
import Custody.Proofs.Wallet.Signing
/-!
# Shares are confidential

Two runs that sign with wallets which differ in their shares alone (`Wallet.HoldTwins`) ask the
network for calls that differ in the share (`Wallet.plan_of_twins`), and end alike, whatever happens
to their ceremonies (`Wallet.runThrough_of_twins`) and over whatever network
(`Wallet.runOver_of_twins`). The share itself is in one place only, the text that the control plane
is posted (`Wallet.confidential_share`).
-/

namespace Custody

open Ceremony

/-! ## Diagnostics of results -/

/-- Diagnostics of key material show its address. -/
theorem KeyMaterial.diagnostic_congr {key other : KeyMaterial} (h : key.address = other.address) :
    key.diagnostic = other.diagnostic := by
  unfold diagnostic
  rw [h]

/-- Diagnostics of a signature show its length. -/
theorem RawSignature.diagnostic_congr {sig other : RawSignature}
    (h : sig.der.length = other.der.length) : sig.diagnostic = other.diagnostic := by
  unfold diagnostic
  rw [h]

/-- What is posted has the same path and type, whatever the share is. -/
theorem Client.ControlPlane.post?_withShare (client : ControlPlane) (peer : Answerer)
    (request : ActionRequest) (share : Bytes) :
    client.post? peer (request.withShare share) =
      (client.post? peer request).map fun post =>
        { post with body := (request.withShare share).render } := by
  rw [post?, post?, Option.map_map]
  rfl

namespace Wallet

/-! ## Twins -/

/-- Under the id of a wallet the files hold wallets that are the same but for their shares, and both
shares can be read. -/
def HoldTwins (options : Options) (files other : Files) (id : String) : Prop :=
  ∃ (wallet twin : Wallet) (share twinShare : Bytes),
    load options files id = .ok wallet ∧ load options other id = .ok twin ∧
      twin = { wallet with share := twin.share } ∧
      wallet.shareBytes = .ok share ∧ twin.shareBytes = .ok twinShare

variable {options : Options} {files other : Files} {id : String}

/-- What the arguments alone come to. -/
def prepared (options : Options) (fresh : SessionId) (digest : String) (requested : Option String) :
    Except Failure (Coordinator × SessionId × Bytes) := do
  let coordinator ← options.coordinator
  let hash ← (Digest.ofText digest).mapError .badDigest
  let session ← sessionOr fresh requested
  return (coordinator, session, hash)

/-- A wallet with a share that can be read leaves all to the arguments. -/
theorem planSign_eq_map {wallet : Wallet} {share : Bytes}
    (hload : load options files id = .ok wallet)
    (hshare : wallet.shareBytes = .ok share) (fresh : SessionId) (digest : String)
    (requested : Option String) (chainId : Option UInt64) :
    planSign options fresh files id digest requested chainId =
      (prepared options fresh digest requested).map fun (coordinator, session, hash) =>
        (coordinator, .sign session share hash wallet.address chainId) := by
  simp only [planSign, prepared, hload]
  cases options.coordinator with
  | error failure => rfl
  | ok coordinator =>
    cases Digest.ofText digest with
    | error fault => rfl
    | ok hash =>
      cases sessionOr fresh requested with
      | error failure => rfl
      | ok session =>
        simp [bind, Except.bind, pure, Except.pure, Except.mapError, Except.map, hshare]

/-- **Both runs are over at once**, with one failure, or they prepare ceremonies that differ in the
share. -/
theorem plan_of_twins (h : HoldTwins options files other id) (fresh : SessionId) (digest : String)
    (requested : Option String) (chainId : Option UInt64) :
    (∃ failure, plan options fresh files (.sign id digest requested chainId) =
        .ended (.failed failure) ∧
      plan options fresh other (.sign id digest requested chainId) = .ended (.failed failure)) ∨
    ∃ coordinator session share twinShare hash address,
      plan options fresh files (.sign id digest requested chainId) =
        .ceremony coordinator (.sign session share hash address chainId) ∧
      plan options fresh other (.sign id digest requested chainId) =
        .ceremony coordinator (.sign session twinShare hash address chainId) := by
  obtain ⟨wallet, twin, share, twinShare, hload, hother, htwin, hshare, htwinShare⟩ := h
  have haddress : twin.address = wallet.address := by rw [htwin]
  simp only [plan]
  rw [planSign_eq_map hload hshare, planSign_eq_map hother htwinShare, haddress]
  cases prepared options fresh digest requested with
  | error failure => exact .inl ⟨failure, rfl, rfl⟩
  | ok ready =>
    obtain ⟨coordinator, session, hash⟩ := ready
    exact .inr ⟨coordinator, session, share, twinShare, hash, wallet.address, rfl, rfl⟩

section

variable (h : HoldTwins options files other id) (fresh : SessionId) (digest : String)
  (requested : Option String) (chainId : Option UInt64)

include h

/-- The network is asked for calls that differ in the share, if it is asked at all. -/
theorem asked?_of_twins :
    ∃ share, asked? options fresh other (.sign id digest requested chainId) =
      (asked? options fresh files (.sign id digest requested chainId)).map fun question =>
        (question.1, question.2.withShare share) := by
  rw [asked?_eq, asked?_eq]
  rcases plan_of_twins h fresh digest requested chainId with
    ⟨failure, hfiles, hother⟩ |
    ⟨coordinator, session, share, twinShare, hash, address, hfiles, hother⟩
  · exact ⟨[], by rw [hfiles, hother]; rfl⟩
  · exact ⟨twinShare, by rw [hfiles, hother]; rfl⟩

/-- **Both runs end alike**, whatever happens to their ceremonies. -/
theorem runThrough_of_twins (clock : Clock) (now : Nat) (events : List Event) :
    ∃ ending : Option Outcome,
      runThrough clock now events options fresh files (.sign id digest requested chainId) =
        ending.map (·, files) ∧
      runThrough clock now events options fresh other (.sign id digest requested chainId) =
        ending.map (·, other) := by
  rw [runThrough, runThrough, run, run]
  rcases plan_of_twins h fresh digest requested chainId with
    ⟨failure, hfiles, hother⟩ |
    ⟨coordinator, session, share, twinShare, hash, address, hfiles, hother⟩
  · exact ⟨some (.failed failure), by rw [hfiles]; rfl, by rw [hother]; rfl⟩
  · have htold := (Call.sign session share hash address).toldAt_withShare twinShare
      coordinator.config clock now events
    rw [hfiles, hother]
    simp only [Job.call]
    rw [Call.withShare] at htold
    rw [htold]
    cases (Call.sign session share hash address).toldAt clock now coordinator.config events with
    | none => exact ⟨none, rfl, rfl⟩
    | some answer =>
      obtain ⟨outcome, hfinish⟩ := exists_finish_sign session hash address chainId answer
      exact ⟨some outcome, congrArg some (hfinish ..), congrArg some (hfinish ..)⟩

open Rehearsal in
/-- **Both runs end alike** over every network, and leave worlds behind that differ in shares
alone. -/
theorem runOver_of_twins (w : World) (network : Network) :
    ∃ outcome after afterOther,
      runOver w network options fresh files (.sign id digest requested chainId) =
        ((outcome, files), after) ∧
      runOver w network options fresh other (.sign id digest requested chainId) =
        ((outcome, other), afterOther) ∧
      after.erased = afterOther.erased := by
  rcases plan_of_twins h fresh digest requested chainId with
    ⟨failure, hfiles, hother⟩ |
    ⟨coordinator, session, share, twinShare, hash, address, hfiles, hother⟩
  · exact ⟨.failed failure, w, w, runOver_of_ended hfiles w network,
      runOver_of_ended hother w network, rfl⟩
  · obtain ⟨hplayed, hworlds⟩ := w.playOver_withShare network options.controlPlane options.broker
      coordinator.config (.sign session share hash address) twinShare
    rw [runOver_of_ceremony hfiles, runOver_of_ceremony hother]
    simp only [Job.call]
    rw [Call.withShare] at hplayed hworlds
    rw [hplayed]
    generalize w.playOver network options.controlPlane options.broker coordinator.config
      (.sign session twinShare hash address) = twin at hworlds ⊢
    obtain ⟨outcome, hfinish⟩ := exists_finish_sign session hash address chainId
      (w.playOver network options.controlPlane options.broker coordinator.config
        (.sign session share hash address)).1.result
    exact ⟨outcome, _, _, by rw [hfinish], by rw [hfinish], hworlds.symm⟩

end

/-- **Shares are confidential.** Of the request that starts a signing, only the last member of the
posted text depends on the share; diagnostics do not. Calls that differ in the share are refused
alike or send such requests, take the same course through whatever happens, and are told the same.
In a rehearsal whose cluster does not look at shares they come to the same in the same time, and
what they leave behind differs in shares alone. Runs that sign with wallets which differ in their
shares ask for such calls, if anything; whatever happens to their ceremonies and over whatever
network, they print the same and fail alike. Diagnostics of results show neither share nor
signature. -/
theorem confidential_share :
    (∀ request : ActionRequest, request.share.isSome → ∃ others, ∀ share,
      (request.withShare share).render =
        others ++ ",\"share_data\":\"" ++ Text.Base64.encode share ++ "\"\x7d" ∧
      (request.withShare share).diagnostic = request.diagnostic ∧
      ∀ (client : Client.ControlPlane) (peer : Client.Answerer),
        client.post? peer (request.withShare share) = (client.post? peer request).map fun post =>
          { post with body := (request.withShare share).render }) ∧
    (∀ clock now config (call : Call) share,
      (call.withShare share).accept clock now config =
          (call.accept clock now config).map (·.withShare share) ∧
      ∀ events,
        (call.withShare share).course config events = call.course config events ∧
        (call.withShare share).toldAt clock now config events =
          call.toldAt clock now config events) ∧
    (∀ (w : Rehearsal.World) config call share, w.cluster.IgnoresShares →
      (w.play config (call.withShare share)).1 = (w.play config call).1 ∧
        (w.play config (call.withShare share)).2.erased = (w.play config call).2.erased) ∧
    (∀ options files other id, HoldTwins options files other id →
      ∀ fresh digest requested chainId,
        (∃ share, asked? options fresh other (.sign id digest requested chainId) =
          (asked? options fresh files (.sign id digest requested chainId)).map fun question =>
            (question.1, question.2.withShare share)) ∧
        (∀ clock now events, ∃ ending : Option Outcome,
          runThrough clock now events options fresh files (.sign id digest requested chainId) =
            ending.map (·, files) ∧
          runThrough clock now events options fresh other (.sign id digest requested chainId) =
            ending.map (·, other)) ∧
        ∀ w network, ∃ outcome after afterOther,
          runOver w network options fresh files (.sign id digest requested chainId) =
            ((outcome, files), after) ∧
          runOver w network options fresh other (.sign id digest requested chainId) =
            ((outcome, other), afterOther) ∧
          after.erased = afterOther.erased) ∧
    (∀ key other : KeyMaterial, key.address = other.address →
      key.diagnostic = other.diagnostic) ∧
    ∀ sig other : RawSignature, sig.der.length = other.der.length →
      sig.diagnostic = other.diagnostic := by
  refine ⟨fun request hshare => ?_, fun clock now config call share => ?_,
    fun w config call share h => Rehearsal.World.play_withShare h config call share,
    fun options files other id h fresh digest requested chainId => ?_,
    fun _ _ => KeyMaterial.diagnostic_congr, fun _ _ => RawSignature.diagnostic_congr⟩
  · obtain ⟨others, hrender⟩ := ActionRequest.exists_render_eq hshare
    exact ⟨others, fun share => ⟨hrender share, request.diagnostic_withShare share,
      fun client peer => client.post?_withShare peer request share⟩⟩
  · exact ⟨call.accept_withShare share config clock now, fun events =>
      ⟨call.course_withShare share config events,
        call.toldAt_withShare share config clock now events⟩⟩
  · exact ⟨asked?_of_twins h fresh digest requested chainId,
      runThrough_of_twins h fresh digest requested chainId,
      runOver_of_twins h fresh digest requested chainId⟩

/-- Two wallets for one address sign, and both runs print the same. -/
theorem confidential_share_of_twins :
    HoldTwins .standard (thirdFiles [1, 2, 3]) (thirdFiles [7]) "w1" ∧
    ∃ outcome,
      runThrough .standard 0 thirdEvents .standard firstSession (thirdFiles [1, 2, 3])
        (.sign "w1" thirdDigest none none) = some (outcome, thirdFiles [1, 2, 3]) ∧
      runThrough .standard 0 thirdEvents .standard firstSession (thirdFiles [7])
        (.sign "w1" thirdDigest none none) = some (outcome, thirdFiles [7]) := by
  have htwins : HoldTwins .standard (thirdFiles [1, 2, 3]) (thirdFiles [7]) "w1" :=
    ⟨_, _, _, _, load_keptFiles thirdAddress _, load_keptFiles thirdAddress _, rfl,
      shareBytes_ofKey _ _, shareBytes_ofKey _ _⟩
  obtain ⟨-, -, -, hruns, -⟩ := confidential_share
  obtain ⟨-, hthrough, -⟩ := hruns _ _ _ _ htwins firstSession thirdDigest none none
  obtain ⟨ending, hthird, htwin⟩ := hthrough .standard 0 thirdEvents
  -- the ceremony comes to an end
  obtain ⟨coordinator, call, sig, hasked, htold⟩ := exists_told_third [1, 2, 3] none
  obtain ⟨job, hplan, rfl⟩ := (asked?_eq_some_iff _ _ _ _).1 hasked
  have hends := runThrough_eq_some_iff.2 (.inr ⟨_, _, _, hplan, htold, rfl⟩)
  cases ending with
  | none => cases hthird.symm.trans hends
  | some outcome => exact ⟨htwins, outcome, hthird, htwin⟩

end Wallet

end Custody
