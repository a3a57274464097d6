import Custody.Proofs.Wallet.Basic
import Custody.Proofs.Wallet.Digest
/-!
# Faults that are found before the network is asked

What a run is told and what it finds in its files may already decide that no ceremony can be held:
`Sound` says that nothing of the kind speaks against it. A run asks something of the network exactly
if all this is sound, and otherwise fails with the files as they were (`local_faults`). One fault is
found too late: a chain id that is too large for every signature is told of only when a signature
has been made (`chainId_refused_after_ceremony`).
-/

namespace Custody.Wallet

/-! ## What can be told without the network -/

/-- The parties, the threshold and the time that a ceremony may take are fit for use. -/
def Options.Fit (options : Options) : Prop :=
  Parties.Valid options.parties options.threshold ∧ 0 < options.timeout ∧
    options.timeout ≤ 24 * 60 * 60

/-- The session that is asked for, if any, has an id that may be used. -/
def IsSession (requested : Option String) : Prop :=
  ∀ text, requested = some text → ∃ session : SessionId, session.text = text

/-- Under the id of a session there is a file that keeps a wallet whose share can be read. -/
def HoldsShare (options : Options) (files : Files) (id : String) : Prop :=
  ∃ (session : SessionId) (text : String) (wallet : Wallet) (share : Bytes), session.text = id ∧
    files.read? (walletPath options session) = some text ∧ Wallet.ofText text = .ok wallet ∧
      wallet.shareBytes = .ok share

/-- Nothing that can be told without the network speaks against the ceremony of a command. To show
a wallet there is no ceremony. -/
def Sound (options : Options) (files : Files) : Command → Prop
  | .keygen requested => options.Fit ∧ IsSession requested
  | .sign id digest requested _ =>
    options.Fit ∧ HoldsShare options files id ∧ Digest.IsDigest digest ∧ IsSession requested
  | .info _ => False

/-! ## What the checks find -/

theorem ofParties_eq_ok_iff {parties : List PartyId} {threshold : UInt32} {config : Config} :
    Config.ofParties parties threshold = .ok config ↔
      Parties.Valid parties threshold ∧ config = { Config.standard with parties, threshold } := by
  have htimeout : 0 < Config.standard.timeout ∧ Config.standard.timeout ≤ Config.maxTimeout := by
    decide
  have hvalid : ({ Config.standard with parties, threshold } : Config).fault? = none ↔
      Parties.Valid parties threshold := by
    rw [Config.fault?_eq_none_iff]
    exact and_iff_left htimeout
  unfold Config.ofParties
  grind

theorem exists_ofConfig_iff {config : Config} :
    (∃ coordinator, Coordinator.ofConfig config = .ok coordinator) ↔ config.Valid := by
  rw [← Config.fault?_eq_none_iff]
  unfold Coordinator.ofConfig
  split
  · next fault h => simp [h]
  · next h => simp [h]

/-- A coordinator is made exactly of options that are fit for one. -/
theorem exists_coordinator_iff {options : Options} :
    (∃ coordinator, options.coordinator = .ok coordinator) ↔ options.Fit := by
  simp only [Options.coordinator, bind_eq_ok_iff, mapError_eq_ok_iff, ofParties_eq_ok_iff]
  have hvalid (config : Config) (hparties : config.parties = options.parties)
      (hthreshold : config.threshold = options.threshold) :
      ({ config with
        timeout := options.timeout * Config.second
        subscribeFirst := options.subscribeFirst } : Config).Valid ↔ options.Fit := by
    rw [Config.Valid, Options.Fit, ← hparties, ← hthreshold]
    refine and_congr_right fun _ => ?_
    simp only [Config.maxTimeout, Config.second]
    omega
  constructor
  · rintro ⟨coordinator, config, ⟨-, rfl⟩, h⟩
    exact (hvalid _ rfl rfl).1 (exists_ofConfig_iff.1 ⟨coordinator, h⟩)
  · intro h
    obtain ⟨coordinator, hcoordinator⟩ := exists_ofConfig_iff.2
      ((hvalid { Config.standard with parties := options.parties, threshold := options.threshold }
        rfl rfl).2 h)
    exact ⟨coordinator, _, ⟨h.1, rfl⟩, hcoordinator⟩

theorem exists_session_iff (fresh : SessionId) {requested : Option String} :
    (∃ session, sessionOr fresh requested = .ok session) ↔ IsSession requested := by
  cases requested with
  | none => simp [sessionOr, IsSession]
  | some text =>
    simp only [sessionOr, mapError_eq_ok_iff, SessionId.ofText_eq_ok_iff, IsSession,
      Option.some.injEq]
    exact ⟨fun h _ htext => htext ▸ h, fun h => h text rfl⟩

theorem exists_wallet_iff {options : Options} {files : Files} {id : String} :
    (∃ wallet share, load options files id = .ok wallet ∧ wallet.shareBytes = .ok share) ↔
      HoldsShare options files id := by
  constructor
  · rintro ⟨wallet, share, hload, hshare⟩
    obtain ⟨session, rfl⟩ := exists_session_of_load hload
    rw [load_text] at hload
    cases hfile : files.read? (walletPath options session) with
    | none =>
      rw [hfile] at hload
      cases hload
    | some text =>
      rw [hfile] at hload
      exact ⟨session, text, wallet, share, rfl, hfile, mapError_eq_ok_iff.1 hload, hshare⟩
  · rintro ⟨session, text, wallet, share, rfl, hfile, hwallet, hshare⟩
    refine ⟨wallet, share, ?_, hshare⟩
    rw [load_text, hfile]
    exact mapError_eq_ok_iff.2 hwallet

/-- A ceremony is prepared exactly if nothing speaks against it. -/
theorem exists_ceremony_iff {options : Options} (fresh : SessionId) {files : Files}
    {command : Command} :
    (∃ coordinator job, plan options fresh files command = .ceremony coordinator job) ↔
      Sound options files command := by
  cases command with
  | info id => simp [plan, Sound]
  | keygen requested =>
    simp only [plan, ofPrepared_eq_ceremony_iff, planKeygen_eq_ok_iff, Sound,
      ← exists_coordinator_iff, ← exists_session_iff fresh]
    constructor
    · rintro ⟨coordinator, job, hcoordinator, session, hsession, -⟩
      exact ⟨⟨coordinator, hcoordinator⟩, session, hsession⟩
    · rintro ⟨⟨coordinator, hcoordinator⟩, session, hsession⟩
      exact ⟨coordinator, .keygen session, hcoordinator, session, hsession, rfl⟩
  | sign id digest requested chainId =>
    simp only [plan, ofPrepared_eq_ceremony_iff, planSign_eq_ok_iff, Sound,
      ← exists_coordinator_iff, ← exists_session_iff fresh, ← exists_wallet_iff,
      ← Digest.exists_ofText_iff]
    constructor
    · rintro ⟨coordinator, job, hcoordinator, wallet, hash, session, share, hwallet, hhash,
        hsession, hshare, -⟩
      exact ⟨⟨coordinator, hcoordinator⟩, ⟨wallet, share, hwallet, hshare⟩, ⟨hash, hhash⟩,
        session, hsession⟩
    · rintro ⟨⟨coordinator, hcoordinator⟩, ⟨wallet, share, hwallet, hshare⟩, ⟨hash, hhash⟩,
        session, hsession⟩
      exact ⟨coordinator, .sign session share hash wallet.address chainId, hcoordinator, wallet,
        hash, session, share, hwallet, hhash, hsession, hshare, rfl⟩

theorem asked?_isSome_iff {options : Options} (fresh : SessionId) {files : Files}
    {command : Command} :
    (asked? options fresh files command).isSome ↔ Sound options files command := by
  rw [← exists_ceremony_iff fresh, asked?_eq]
  cases plan options fresh files command <;> simp

/-- Where something speaks against the ceremony of a command, the run is over with a failure. -/
theorem plan_of_not_sound {options : Options} (fresh : SessionId) {files : Files}
    {command : Command} (h : ¬ Sound options files command) (hinfo : ∀ id, command ≠ .info id) :
    ∃ failure, plan options fresh files command = .ended (.failed failure) := by
  have hprepared : ∃ prepared, plan options fresh files command = .ofPrepared prepared := by
    cases command with
    | keygen requested => exact ⟨_, rfl⟩
    | sign id digest requested chainId => exact ⟨_, rfl⟩
    | info id => exact absurd rfl (hinfo id)
  obtain ⟨prepared, hplan⟩ := hprepared
  cases prepared with
  | error failure => exact ⟨failure, hplan⟩
  | ok ceremony => exact absurd ((exists_ceremony_iff fresh).1 ⟨ceremony.1, ceremony.2, hplan⟩) h

/-! ## Chain ids -/

/-- There is no `v` value for a chain, whichever of the two ids the signature has. -/
def HasNoV (chainId : UInt64) : Prop :=
  ∀ sig : CanonicalSignature, sig.recoveryId = 0 ∨ sig.recoveryId = 1 → sig.v (some chainId) = none

theorem v_eq_none {chainId : UInt64} (h : HasNoV chainId) (sig : CanonicalSignature) :
    sig.v (some chainId) = none := by
  have hzero := h { sig with recoveryId := 0 } (.inl rfl)
  simp only [CanonicalSignature.v, UInt8.toNat_zero, ite_eq_right_iff, reduceCtorEq, imp_false]
    at hzero ⊢
  omega

theorem finish_of_hasNoV {chainId : UInt64} (h : HasNoV chainId) (options : Options)
    (files : Files) (session : SessionId) (share hash : Bytes) (address : String)
    (answer : Except Error Answer) :
    ((Job.sign session share hash address (some chainId)).finish options files
      answer).1.failure.isSome := by
  cases answer with
  | error e => rfl
  | ok answer =>
    cases answer with
    | key key => rfl
    | raw sig => rfl
    | canonical sig =>
      rw [Job.finish, showSignature, v_eq_none h]
      rfl

/-- Whatever the network answers, to sign for a chain without a `v` value is a failure. -/
theorem failure_of_hasNoV {chainId : UInt64} (h : HasNoV chainId) (options : Options)
    (fresh : SessionId) (files : Files) (id digest : String) (requested : Option String)
    (network : Coordinator → Call → Except Error Answer) :
    (run (m := Id) network options fresh files
      (.sign id digest requested (some chainId))).1.failure.isSome := by
  rw [run]
  cases hplan : plan options fresh files (.sign id digest requested (some chainId)) with
  | ended outcome =>
    rw [plan, ofPrepared_eq_ended_iff] at hplan
    obtain ⟨failure, -, rfl⟩ := hplan
    rfl
  | ceremony coordinator job =>
    rw [plan, ofPrepared_eq_ceremony_iff, planSign_eq_ok_iff] at hplan
    obtain ⟨-, wallet, hash, session, share, -, -, -, -, rfl⟩ := hplan
    exact finish_of_hasNoV h options files session share hash wallet.address _

/-- **Local faults never reach the network**, but for one. A run asks for a ceremony exactly if
nothing in its arguments and files speaks against it. Otherwise, unless it shows a wallet, it fails
over whatever network without having asked, and leaves its files as they are. A chain id that no
signature has a `v` value for is not among these faults: the ceremony is held, and the run fails
whatever comes of it. -/
theorem local_faults (options : Options) (fresh : SessionId) (files : Files) (command : Command) :
    ((asked? options fresh files command).isSome ↔ Sound options files command) ∧
    (¬ Sound options files command → (∀ id, command ≠ .info id) →
      ∃ failure, ∀ {m : Type → Type} [Monad m]
        (perform : Coordinator → Call → m (Except Error Answer)),
        run perform options fresh files command = pure (.failed failure, files)) ∧
    (∀ id digest requested chainId, command = .sign id digest requested (some chainId) →
      HasNoV chainId → ∀ network,
        (run (m := Id) network options fresh files command).1.failure.isSome) := by
  refine ⟨asked?_isSome_iff fresh, fun h hinfo => ?_, ?_⟩
  · obtain ⟨failure, hplan⟩ := plan_of_not_sound fresh h hinfo
    exact ⟨failure, fun perform => by rw [run, hplan]⟩
  · rintro id digest requested chainId rfl h network
    exact failure_of_hasNoV h options fresh files id digest requested network

/-! ## A fault that is found too late -/

/-- The standard options. -/
def Options.standard : Options :=
  GivenOptions.none.options

theorem fit_standard : Options.standard.Fit :=
  ⟨Parties.fault?_eq_none_iff.1 (by decide), by decide, by decide⟩

/-- The session `w1`. -/
def firstSession : SessionId := ⟨"w1", by decide, by decide, by decide⟩

/-- The files of a directory that keeps a wallet of the session `w1`. -/
def firstFiles : Files :=
  [(walletPath .standard firstSession, ⟨(ofKey firstSession ⟨[1, 2, 3], "0x00"⟩).render, true⟩)]

/-- A digest of 32 equal bytes. -/
def someDigest : String :=
  "5a5a5a5a5a5a5a5a5a5a5a5a5a5a5a5a5a5a5a5a5a5a5a5a5a5a5a5a5a5a5a5a"

/-- The largest chain id. -/
def lastChain : UInt64 := 18446744073709551615

/-- A signature is asked for on the chain with the largest id. -/
def signOnLastChain : Command :=
  .sign "w1" someDigest none (some lastChain)

theorem sound_signOnLastChain : Sound .standard firstFiles signOnLastChain := by
  have hfile : firstFiles.read? (walletPath .standard firstSession) =
      some (ofKey firstSession ⟨[1, 2, 3], "0x00"⟩).render := by
    simp [firstFiles, Files.read?]
  have hdigest : Digest.IsDigest someDigest := by decide +kernel
  have hsession : IsSession none := by simp [IsSession]
  exact ⟨fit_standard, ⟨firstSession, _, _, _, rfl, hfile, ofText_render _, shareBytes_ofKey _ _⟩,
    hdigest, hsession⟩

/-- **A chain id that no signature can have is found out too late**: nothing in the files can change
that a signature for it fails, and still the ceremony is asked for. -/
theorem chainId_refused_after_ceremony :
    HasNoV lastChain ∧
      (asked? .standard firstSession firstFiles signOnLastChain).isSome ∧
      ∀ network,
        (run (m := Id) network .standard firstSession firstFiles
          signOnLastChain).1.failure.isSome := by
  have hchain : HasNoV lastChain := by
    intro sig _
    have hlarge : ¬ 35 + 2 * lastChain.toNat + sig.recoveryId.toNat < UInt64.size := by
      rw [show lastChain.toNat = 18446744073709551615 from rfl, UInt64.size]
      omega
    exact if_neg hlarge
  refine ⟨hchain, (asked?_isSome_iff _).2 sound_signOnLastChain, fun network => ?_⟩
  rw [signOnLastChain]
  exact failure_of_hasNoV hchain .standard firstSession firstFiles "w1" someDigest none network

end Custody.Wallet
