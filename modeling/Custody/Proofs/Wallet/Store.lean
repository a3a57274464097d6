import Mathlib.Data.List.Induction
import Custody.Proofs.Ceremony.Order
import Custody.Proofs.Session.Request
import Custody.Proofs.Wallet.Faults
/-!
# Wallets over many runs

The program is run any number of times on one directory that is empty at first, with any commands
and over any network (`Trial`). Each file of the directory then keeps the wallet of the last key
generation that succeeded in its session (`Store.read?_after`), because a run writes at most one
file, that of the session in which it has made a key (`Trial.lookup_run`). Hence whoever signs with
a wallet sends the very share that was delivered and looks for the very address
(`Store.faithful`).
-/

namespace Custody.Wallet

open Json

/-- A run of the program: what it is told, the session made up for it, and what the network makes
of the ceremony that it may ask for. -/
structure Trial where
  options : Options
  fresh : SessionId
  command : Command
  network : Coordinator → Call → Except Error Answer

/-- The options of a run in a directory. -/
def Options.within (options : Options) (directory : String) : Options :=
  { options with directory }

/-- The path of the wallet of a session in a directory. -/
def pathWithin (directory : String) (session : SessionId) : String :=
  pathIn directory (fileName session)

@[simp] theorem walletPath_within (options : Options) (directory : String) (session : SessionId) :
    walletPath (options.within directory) session = pathWithin directory session := rfl

/-- In one directory each session has a wallet file of its own. -/
theorem pathWithin_inj {directory : String} {session other : SessionId} :
    pathWithin directory session = pathWithin directory other ↔ session = other := by
  rw [pathWithin, pathWithin, pathIn_inj]
  exact fileName_injective.eq_iff

/-- A key generation without a key fails and keeps nothing. -/
theorem finish_keygen (options : Options) (files : Files) (session : SessionId)
    {answer : Except Error Answer} (h : ∀ key, answer ≠ .ok (.key key)) :
    ((Job.keygen session).finish options files answer).1.failure.isSome ∧
      ((Job.keygen session).finish options files answer).2 = files := by
  cases answer with
  | error e => exact ⟨rfl, rfl⟩
  | ok answer =>
    cases answer with
    | key key => exact absurd rfl (h key)
    | raw sig => exact ⟨rfl, rfl⟩
    | canonical sig => exact ⟨rfl, rfl⟩

namespace Trial

variable (trial : Trial) (directory : String) (files : Files)

/-- A run on the files of a directory: how it ends, and the files after it. -/
def run : Outcome × Files :=
  Wallet.run (m := Id) trial.network (trial.options.within directory) trial.fresh files
    trial.command

theorem run_of_ended {outcome : Outcome}
    (h : plan (trial.options.within directory) trial.fresh files trial.command = .ended outcome) :
    trial.run directory files = (outcome, files) := by
  rw [run, Wallet.run, h]
  rfl

theorem run_of_ceremony {coordinator : Coordinator} {job : Job}
    (h : plan (trial.options.within directory) trial.fresh files trial.command =
      .ceremony coordinator job) :
    trial.run directory files =
      job.finish (trial.options.within directory) files (trial.network coordinator job.call) := by
  rw [run, Wallet.run, h]
  rfl

/-- The session and the key of a key generation that has succeeded. -/
def made? : Option (SessionId × KeyMaterial) :=
  match trial.command with
  | .keygen requested =>
    match sessionOr trial.fresh requested, trial.options.coordinator with
    | .ok session, .ok coordinator =>
      match trial.network coordinator (.createWallet session) with
      | .ok (.key key) => some (session, key)
      | _ => none
    | _, _ => none
  | _ => none

theorem made?_eq_some_iff {session : SessionId} {key : KeyMaterial} :
    trial.made? = some (session, key) ↔
      ∃ requested coordinator, trial.command = .keygen requested ∧
        sessionOr trial.fresh requested = .ok session ∧
          trial.options.coordinator = .ok coordinator ∧
            trial.network coordinator (.createWallet session) = .ok (.key key) := by
  unfold made?
  grind

/-- A run in which a key was made keeps it in a wallet and tells of it. -/
theorem run_of_made {session : SessionId} {key : KeyMaterial}
    (h : trial.made? = some (session, key)) :
    trial.run directory files =
      (⟨["Session: " ++ session.text, "Address: " ++ key.address], none⟩,
        files.write (pathWithin directory session) (ofKey session key).render) := by
  obtain ⟨requested, coordinator, hcommand, hsession, hcoordinator, hnetwork⟩ :=
    (made?_eq_some_iff trial).1 h
  have hplan : plan (trial.options.within directory) trial.fresh files trial.command =
      .ceremony coordinator (.keygen session) := by
    rw [hcommand, plan, ofPrepared_eq_ceremony_iff, planKeygen_eq_ok_iff]
    exact ⟨hcoordinator, session, hsession, rfl⟩
  rw [run_of_ceremony trial directory files hplan, Job.call, hnetwork]
  rfl

/-- A key generation that makes no key fails and leaves all files as they are. -/
theorem run_keygen_of_made_none {requested : Option String}
    (hcommand : trial.command = .keygen requested) (h : trial.made? = none) :
    (trial.run directory files).1.failure.isSome ∧ (trial.run directory files).2 = files := by
  cases hplan : plan (trial.options.within directory) trial.fresh files trial.command with
  | ended outcome =>
    rw [run_of_ended trial directory files hplan]
    rw [hcommand, plan, ofPrepared_eq_ended_iff] at hplan
    obtain ⟨failure, -, rfl⟩ := hplan
    exact ⟨rfl, rfl⟩
  | ceremony coordinator job =>
    rw [run_of_ceremony trial directory files hplan]
    rw [hcommand, plan, ofPrepared_eq_ceremony_iff, planKeygen_eq_ok_iff] at hplan
    obtain ⟨hcoordinator, session, hsession, rfl⟩ := hplan
    refine finish_keygen _ files session fun key hanswer => ?_
    have hmade : trial.made? = some (session, key) := (made?_eq_some_iff trial).2
      ⟨requested, coordinator, hcommand, hsession, hcoordinator, hanswer⟩
    rw [h] at hmade
    cases hmade

/-- A run leaves all files as they are unless a key is made in it. -/
theorem run_of_made_none (h : trial.made? = none) : (trial.run directory files).2 = files := by
  cases hcommand : trial.command with
  | keygen requested => exact (run_keygen_of_made_none trial directory files hcommand h).2
  | info id =>
    have hplan : plan (trial.options.within directory) trial.fresh files trial.command =
        .ended (showWallet (trial.options.within directory) files id) := by
      rw [hcommand, plan]
    rw [run_of_ended trial directory files hplan]
  | sign id digest requested chainId =>
    cases hplan : plan (trial.options.within directory) trial.fresh files trial.command with
    | ended outcome => rw [run_of_ended trial directory files hplan]
    | ceremony coordinator job =>
      rw [run_of_ceremony trial directory files hplan]
      rw [hcommand, plan, ofPrepared_eq_ceremony_iff, planSign_eq_ok_iff] at hplan
      obtain ⟨-, wallet, hash, session, share, -, -, -, -, rfl⟩ := hplan
      obtain ⟨_, hfinish⟩ := exists_finish_sign session hash wallet.address chainId _
      rw [hfinish]

/-- A key is made exactly in the key generations that succeed. -/
theorem made?_isSome_iff :
    trial.made?.isSome ↔
      (∃ requested, trial.command = .keygen requested) ∧
        (trial.run directory files).1.failure = none := by
  constructor
  · intro h
    obtain ⟨⟨session, key⟩, hmade⟩ := Option.isSome_iff_exists.1 h
    obtain ⟨requested, -, hcommand, -⟩ := (made?_eq_some_iff trial).1 hmade
    rw [run_of_made trial directory files hmade]
    exact ⟨⟨requested, hcommand⟩, rfl⟩
  · rintro ⟨⟨requested, hcommand⟩, hsuccess⟩
    by_contra hnone
    have hfailure := (run_keygen_of_made_none trial directory files hcommand
      (Option.not_isSome_iff_eq_none.1 hnone)).1
    rw [hsuccess] at hfailure
    cases hfailure

/-- The file of a session's wallet stays as it is unless a key is made for that session. -/
theorem lookup_run {session : SessionId} (h : ∀ key, trial.made? ≠ some (session, key)) :
    (trial.run directory files).2.lookup (pathWithin directory session) =
      files.lookup (pathWithin directory session) := by
  cases hmade : trial.made? with
  | none => rw [run_of_made_none trial directory files hmade]
  | some made =>
    obtain ⟨other, key⟩ := made
    have hother : session ≠ other := by
      rintro rfl
      exact h key hmade
    rw [run_of_made trial directory files hmade]
    exact lookup_write_of_ne files _ fun hpath => hother (pathWithin_inj.1 hpath)

end Trial

/-! ## Many runs -/

/-- The files of a directory after runs on it, of which there are none at first. -/
def after (directory : String) (trials : List Trial) : Files :=
  trials.foldl (fun files trial => (trial.run directory files).2) []

/-- The key of the last key generation that has succeeded in a session. -/
def latest? (trials : List Trial) (session : SessionId) : Option KeyMaterial :=
  (trials.filterMap Trial.made?).reverse.lookup session

theorem after_concat (directory : String) (trials : List Trial) (trial : Trial) :
    after directory (trials ++ [trial]) = (trial.run directory (after directory trials)).2 := by
  rw [after, List.foldl_append]
  rfl

theorem latest?_concat_of_made {trials : List Trial} {trial : Trial} {session : SessionId}
    {key : KeyMaterial} (h : trial.made? = some (session, key)) :
    latest? (trials ++ [trial]) session = some key := by
  simp [latest?, List.filterMap_append, h]

theorem latest?_concat_of_ne {trials : List Trial} {trial : Trial} {session : SessionId}
    (h : ∀ key, trial.made? ≠ some (session, key)) :
    latest? (trials ++ [trial]) session = latest? trials session := by
  cases hmade : trial.made? with
  | none => simp [latest?, List.filterMap_append, hmade]
  | some made =>
    obtain ⟨other, key⟩ := made
    have hother : session ≠ other := by
      rintro rfl
      exact h key hmade
    have hname : (session == other) = false := beq_eq_false_iff_ne.2 hother
    simp [latest?, List.filterMap_append, hmade, List.lookup_cons, hname]

/-- Each file keeps the wallet of the last key that was made for its session. -/
theorem read?_after (directory : String) (trials : List Trial) (session : SessionId) :
    (after directory trials).read? (pathWithin directory session) =
      (latest? trials session).map fun key => (ofKey session key).render := by
  induction trials using List.reverseRecOn with
  | nil => rfl
  | append_singleton trials trial ih =>
    rw [after_concat]
    by_cases hmade : ∃ key, trial.made? = some (session, key)
    · obtain ⟨key, hmade⟩ := hmade
      rw [Trial.run_of_made trial directory _ hmade, Files.read?_write_self,
        latest?_concat_of_made hmade]
      rfl
    · have hother := not_exists.1 hmade
      rw [Files.read?, Trial.lookup_run trial directory _ hother, latest?_concat_of_ne hother]
      exact ih

/-- Under an id the wallet of the last key is found that was made for the session with that id. -/
theorem load_after (options : Options) (directory : String) (trials : List Trial)
    (session : SessionId) :
    load (options.within directory) (after directory trials) session.text =
      match latest? trials session with
      | none => .error (.missingWallet (pathWithin directory session))
      | some key => .ok (ofKey session key) := by
  rw [load_text, walletPath_within, read?_after]
  cases latest? trials session with
  | none => rfl
  | some key => simp [Except.mapError]

/-! ## What is done with a wallet -/

/-- The call sends a request for a signature whose share reads as these bytes. -/
def SendsShare (config : Config) (call : Call) (share : Bytes) : Prop :=
  ∃ request members text, call.request config = .ok request ∧
    Value.ofText? request.render = some (.object members) ∧
      members.lookup "action" = some (.string "INIT_SIGN") ∧
        members.lookup "share_data" = some (.string text) ∧
          Text.Base64.decode text = .ok share

/-- A call to sign a digest sends the share that it was given. -/
theorem sendsShare_of_sign (coordinator : Coordinator) (session : SessionId) (share : Bytes)
    {hash : Bytes} (address : String) (h : hash.length = hashLength) :
    SendsShare coordinator.config (.sign session share hash address) share := by
  obtain ⟨scope, hscope⟩ :=
    Call.scope_of_valid coordinator.valid (.sign session share hash address)
  refine ⟨.sign scope share hash, _, Text.Base64.encode share, ?_,
    ActionRequest.ofText?_render _, rfl, rfl, Text.Base64.decode_encode share⟩
  rw [Call.request, Call.signRequest, if_neg (not_not.2 h), hscope]
  rfl

/-- **The store of wallets is faithful.** Whatever runs there have been on a directory that was
empty at first, one who signs with a wallet sends the share that was delivered to the last key
generation that succeeded under its id, and looks for the address that was delivered with it; one
who looks at the wallet is shown that address and the length of that share; and the file of the
wallet changes only when a further key generation succeeds under its id. -/
theorem faithful_store (directory : String) (trials : List Trial) (trial : Trial) :
    (trial.made?.isSome ↔
      (∃ requested, trial.command = .keygen requested) ∧
        (trial.run directory (after directory trials)).1.failure = none) ∧
    (∀ id digest requested chainId coordinator call,
      trial.command = .sign id digest requested chainId →
      asked? (trial.options.within directory) trial.fresh (after directory trials) trial.command =
        some (coordinator, call) →
      ∃ session key signing hash, session.text = id ∧ latest? trials session = some key ∧
        call = .sign signing key.share hash key.address ∧
        SendsShare coordinator.config call key.share ∧
        ∀ sig, call.conclude (.sign sig) =
          .canonical <$> CanonicalSignature.ofDer sig.der hash key.address) ∧
    (∀ session : SessionId, trial.command = .info session.text →
      (trial.run directory (after directory trials)).1 =
        match latest? trials session with
        | none => .failed (.missingWallet (pathWithin directory session))
        | some key =>
          ⟨["Wallet Info:", "  Session: " ++ session.text, "  Address: " ++ key.address,
            s!"  Share: {key.share.length} bytes"], none⟩) ∧
    (∀ session : SessionId, (∀ key, trial.made? ≠ some (session, key)) →
      (trial.run directory (after directory trials)).2.lookup (pathWithin directory session) =
        (after directory trials).lookup (pathWithin directory session)) := by
  refine ⟨trial.made?_isSome_iff directory _, ?_, ?_,
    fun session h => trial.lookup_run directory _ h⟩
  · intro id digest requested chainId coordinator call hcommand hasked
    obtain ⟨job, hplan, rfl⟩ := (asked?_eq_some_iff _ _ _ _).1 hasked
    rw [hcommand, plan, ofPrepared_eq_ceremony_iff, planSign_eq_ok_iff] at hplan
    obtain ⟨-, wallet, hash, signing, share, hwallet, hhash, -, hshare, rfl⟩ := hplan
    obtain ⟨session, hsession⟩ := exists_session_of_load hwallet
    rw [← hsession, load_after] at hwallet
    cases hlatest : latest? trials session with
    | none =>
      rw [hlatest] at hwallet
      cases hwallet
    | some key =>
      rw [hlatest] at hwallet
      cases hwallet
      rw [shareBytes_ofKey] at hshare
      cases hshare
      exact ⟨session, key, signing, hash, hsession, hlatest, rfl,
        sendsShare_of_sign coordinator signing key.share key.address
          (Digest.ofText_eq_ok_iff.1 hhash).2, fun sig => rfl⟩
  · intro session hcommand
    have hplan : plan (trial.options.within directory) trial.fresh (after directory trials)
        trial.command =
        .ended (showWallet (trial.options.within directory) (after directory trials)
          session.text) := by
      rw [hcommand, plan]
    rw [trial.run_of_ended directory _ hplan, showWallet, load_after]
    cases latest? trials session with
    | none => rfl
    | some key =>
      simp only [shareBytes_ofKey]
      rfl

/-- A key generation in the session `w1` over a network that delivers a key. -/
def deliver (key : KeyMaterial) : Trial :=
  ⟨.standard, firstSession, .keygen (some "w1"), fun _ _ => .ok (.key key)⟩

/-- A signature with the wallet `w1` over a network that nobody answers in. -/
def signAlone : Trial :=
  ⟨.standard, firstSession, .sign "w1" someDigest none none, fun _ _ => .error (.transport "")⟩

theorem made?_deliver (key : KeyMaterial) : (deliver key).made? = some (firstSession, key) := by
  obtain ⟨coordinator, hcoordinator⟩ := exists_coordinator_iff.2 fit_standard
  have hsession : sessionOr firstSession (some "w1") = .ok firstSession := by
    rw [sessionOr, mapError_eq_ok_iff, SessionId.ofText_eq_ok_iff]
    rfl
  exact (Trial.made?_eq_some_iff _).2
    ⟨some "w1", coordinator, rfl, hsession, hcoordinator, rfl⟩

/-- Two key generations in the session `w1`. -/
def renewed : List Trial :=
  [deliver ⟨[1], "0x0a"⟩, deliver ⟨[2], "0x0b"⟩]

theorem latest?_renewed : latest? renewed firstSession = some ⟨[2], "0x0b"⟩ := by
  simp [latest?, renewed, made?_deliver]

/-- After two key generations in one session it is the second share that is sent. -/
theorem faithful_store_of_renewed_key :
    ∃ coordinator call,
      asked? (Options.standard.within "wallets") firstSession (after "wallets" renewed)
        signAlone.command = some (coordinator, call) ∧ SendsShare coordinator.config call [2] := by
  have hshare : HoldsShare (Options.standard.within "wallets") (after "wallets" renewed) "w1" := by
    refine ⟨firstSession, _, _, [2], rfl, ?_, ofText_render _,
      shareBytes_ofKey firstSession ⟨[2], "0x0b"⟩⟩
    rw [walletPath_within, read?_after, latest?_renewed]
    rfl
  have hsound : Sound (Options.standard.within "wallets") (after "wallets" renewed)
      signAlone.command :=
    ⟨fit_standard, hshare, by decide +kernel, by simp [IsSession]⟩
  obtain ⟨⟨coordinator, call⟩, hasked⟩ :=
    Option.isSome_iff_exists.1 ((asked?_isSome_iff firstSession).2 hsound)
  obtain ⟨session, key, -, -, hid, hlatest, -, hsends, -⟩ :=
    (faithful_store "wallets" renewed signAlone).2.1 _ _ _ _ _ _ rfl hasked
  obtain rfl : session = firstSession := SessionId.text_injective hid
  rw [latest?_renewed] at hlatest
  obtain rfl := Option.some.inj hlatest
  exact ⟨coordinator, call, hasked, hsends⟩

end Custody.Wallet
