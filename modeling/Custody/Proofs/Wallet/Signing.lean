import Custody.Proofs.Envelope
import Custody.Proofs.Rehearsal.Errors
import Custody.Proofs.Session.Naming
import Custody.Proofs.Signature.Malleability
import Custody.Proofs.Wallet.Faults
/-!
# Signatures that are printed

A run that signs prints the signature that its ceremony has come to, if that recovers to the address
of the wallet and has a `v` value for the chain.

The ceremony may take any course: `Wallet.runThrough` is a run to whose ceremony any events happen,
and `Wallet.runOver` one over a rehearsed network, whose answers are those of some course
(`World.Reached.told_playOver`).

* `CanonicalSignature.Signs`: what is known of a signature that an encoded one has been turned into.
* `CanonicalSignature.parts_value`: the chain id and the recovery id are read back from a `v` value.
* `Wallet.Prints`: the lines of a signature.
* `Wallet.printed_signature`: whatever goes on, nothing else is printed by a run that succeeds.
-/

namespace Custody

open Ceremony Ecdsa Secp256k1

/-! ## Signatures -/

namespace CanonicalSignature

/-- The signature has a low `s`, and the recovery id zero or one selects a key with the expected
address. -/
structure Signs (sig : CanonicalSignature) (digest : Bytes) (expected : String) : Prop where
  isLow : sig.s.toNat ≤ n / 2
  recoveryId : sig.recoveryId = 0 ∨ sig.recoveryId = 1
  recovers : sig.RecoversTo digest expected

/-- Whatever encoded signature it has been made of, it is one for the expected address. -/
theorem signs_of_ofDer {der digest : Bytes} {expected : String} {sig : CanonicalSignature}
    (h : ofDer der digest expected = .ok sig) : sig.Signs digest expected := by
  have hfit : digest.length = hashLength ∧ ∃ pair, der = Der.write pair := by
    by_contra hbad
    have hmalformed : digest.length ≠ hashLength ∨ ∀ pair, der ≠ Der.write pair := by
      by_cases hl : digest.length = hashLength
      · exact .inr fun pair hpair => hbad ⟨hl, pair, hpair⟩
      · exact .inl hl
    obtain ⟨reason, he⟩ := ofDer_malformed expected hmalformed
    rw [he] at h
    cases h
  obtain ⟨hl, pair, rfl⟩ := hfit
  obtain ⟨id, hid, hrecovers, -, rfl⟩ := (ofDer_write_eq_ok_iff hl pair expected sig).1 h
  exact ⟨(candidate_numbers pair id).2.2, eq_zero_or_one_of_lt_two hid, hrecovers⟩

/-! ## Values for chains -/

/-- The value that a transaction carries, whether or not 64 bits hold it. -/
def value (recoveryId : UInt8) : (chainId : Option UInt64) → Nat
  | none => 27 + recoveryId.toNat
  | some chainId => 35 + 2 * chainId.toNat + recoveryId.toNat

/-- The chain id, if there is one, and the recovery id that a value is made of. -/
def parts (value : Nat) : Option UInt64 × UInt8 :=
  if value < 35 then (none, UInt8.ofNat (value - 27))
  else (some (UInt64.ofNat ((value - 35) / 2)), UInt8.ofNat ((value - 35) % 2))

/-- **Both ids are read back from the value.** -/
theorem parts_value {recoveryId : UInt8} (h : recoveryId = 0 ∨ recoveryId = 1)
    (chainId : Option UInt64) : parts (value recoveryId chainId) = (chainId, recoveryId) := by
  have hid : recoveryId.toNat < 2 := by
    rcases h with rfl | rfl <;> decide
  cases chainId with
  | none =>
    have hback : 27 + recoveryId.toNat - 27 = recoveryId.toNat := by omega
    rw [value, parts, if_pos (by omega), hback, UInt8.ofNat_toNat]
  | some chainId =>
    have hhalf : (35 + 2 * chainId.toNat + recoveryId.toNat - 35) / 2 = chainId.toNat := by omega
    have hrest : (35 + 2 * chainId.toNat + recoveryId.toNat - 35) % 2 = recoveryId.toNat := by
      omega
    rw [value, parts, if_neg (by omega), hhalf, hrest, UInt8.ofNat_toNat, UInt64.ofNat_toNat]

/-- The value that is carried is the whole value, and there is none exactly if 64 bits do not hold
it. -/
theorem v_eq {sig : CanonicalSignature} (h : sig.recoveryId = 0 ∨ sig.recoveryId = 1)
    (chainId : Option UInt64) :
    sig.v chainId =
      if value sig.recoveryId chainId < UInt64.size then
        some (UInt64.ofNat (value sig.recoveryId chainId))
      else none := by
  cases chainId with
  | none =>
    have hfits : value sig.recoveryId none < UInt64.size := by
      rcases h with h | h <;> rw [h] <;> decide
    rw [if_pos hfits]
    rfl
  | some chainId => rfl

theorem size_le_value_iff {recoveryId : UInt8} (h : recoveryId = 0 ∨ recoveryId = 1)
    (chainId : Option UInt64) :
    UInt64.size ≤ value recoveryId chainId ↔
      ∃ chain, chainId = some chain ∧
        2 ^ 64 - 1 < 35 + 2 * chain.toNat + recoveryId.toNat := by
  cases chainId with
  | none =>
    have hfits : value recoveryId none < UInt64.size := by
      rcases h with rfl | rfl <;> decide
    simp [Nat.not_le.2 hfits]
  | some chain =>
    simp only [value, UInt64.size, Option.some.injEq, exists_eq_left']
    omega

/-- For one chain id all depends on the recovery id. -/
example : value 0 (some 9223372036854775790) < UInt64.size ∧
    ¬ value 1 (some 9223372036854775790) < UInt64.size := by
  decide

end CanonicalSignature

namespace Wallet

/-! ## Lines -/

/-- `Prints lines sig chainId`: the lines show the signature with its value for the chain. -/
structure Prints (lines : List String) (sig : CanonicalSignature) (chainId : Option UInt64) :
    Prop where
  lines_eq : lines =
    ["Signature:", "  r: " ++ Text.Hex.encode sig.r.val, "  s: " ++ Text.Hex.encode sig.s.val,
      "  v: " ++ toString (CanonicalSignature.value sig.recoveryId chainId),
      "  bytes: " ++ Text.Hex.encode (sig.r.val ++ sig.s.val ++ [sig.recoveryId])]
  /-- The last line is that of `r`, that of `s` and the two digits of the recovery id. -/
  bytes_eq : Text.Hex.encode (sig.r.val ++ sig.s.val ++ [sig.recoveryId]) =
    Text.Hex.encode sig.r.val ++ Text.Hex.encode sig.s.val ++ Text.Hex.encode [sig.recoveryId]
  /-- The value is no larger than what the program can hold. -/
  value_lt : CanonicalSignature.value sig.recoveryId chainId < UInt64.size
  parts_eq : ∀ value, toString value =
      toString (CanonicalSignature.value sig.recoveryId chainId) →
    CanonicalSignature.parts value = (chainId, sig.recoveryId)

/-- What is shown of a signature: its lines, or that the chain id is too large. -/
theorem showSignature_cases {sig : CanonicalSignature}
    (h : sig.recoveryId = 0 ∨ sig.recoveryId = 1) (chainId : Option UInt64) :
    (CanonicalSignature.value sig.recoveryId chainId < UInt64.size ∧
      (showSignature sig chainId).failure = none ∧
        Prints (showSignature sig chainId).lines sig chainId) ∨
    UInt64.size ≤ CanonicalSignature.value sig.recoveryId chainId ∧
      showSignature sig chainId = .failed .chainIdTooLarge := by
  rcases Nat.lt_or_ge (CanonicalSignature.value sig.recoveryId chainId) UInt64.size with
    hfits | hlarge
  · have hv := CanonicalSignature.v_eq h chainId
    rw [if_pos hfits] at hv
    refine .inl ⟨hfits, by rw [showSignature, hv], ?_, ?_, hfits, fun value hvalue => ?_⟩
    · rw [showSignature, hv]
      simp only [UInt64.toNat_ofNat', Nat.mod_eq_of_lt hfits, CanonicalSignature.toBytes]
    · rw [Text.Hex.encode_append, Text.Hex.encode_append]
    · rw [toString_nat_injective hvalue, CanonicalSignature.parts_value h]
  · have hv := CanonicalSignature.v_eq h chainId
    rw [if_neg (Nat.not_lt.2 hlarge)] at hv
    exact .inr ⟨hlarge, by rw [showSignature, hv]⟩

/-! ## Runs -/

/-- A run to whose ceremony these events happen. It starts at a moment of a clock, and has no end if
its ceremony has none. -/
def runThrough (clock : Clock) (now : Nat) (events : List Event) (options : Options)
    (fresh : SessionId) (files : Files) (command : Command) : Option (Outcome × Files) :=
  run (fun coordinator call => call.toldAt clock now coordinator.config events) options fresh files
    command

open Rehearsal in
/-- A run over a rehearsed network. -/
def runOver (w : World) (network : Network) (options : Options) (fresh : SessionId) (files : Files)
    (command : Command) : (Outcome × Files) × World :=
  run (m := StateM World) (fun coordinator call w =>
    let (played, w) :=
      w.playOver network options.controlPlane options.broker coordinator.config call
    (played.result, w)) options fresh files command w

section

variable {options : Options} {fresh : SessionId} {files after : Files} {command : Command}
  {outcome : Outcome} {id digest : String} {requested : Option String} {chainId : Option UInt64}

theorem runThrough_eq_some_iff {clock : Clock} {now : Nat} {events : List Event} :
    runThrough clock now events options fresh files command = some (outcome, after) ↔
      (plan options fresh files command = .ended outcome ∧ after = files) ∨
      ∃ coordinator job answer, plan options fresh files command = .ceremony coordinator job ∧
        job.call.toldAt clock now coordinator.config events = some answer ∧
        job.finish options files answer = (outcome, after) := by
  rw [runThrough, run]
  cases plan options fresh files command with
  | ended other => simp [eq_comm]
  | ceremony coordinator job => simp [Option.bind_eq_some_iff]

open Rehearsal in
theorem runOver_of_ceremony {coordinator : Coordinator} {job : Job}
    (h : plan options fresh files command = .ceremony coordinator job) (w : World)
    (network : Network) :
    runOver w network options fresh files command =
      (job.finish options files (w.playOver network options.controlPlane options.broker
          coordinator.config job.call).1.result,
        (w.playOver network options.controlPlane options.broker coordinator.config
          job.call).2) := by
  rw [runOver, run, h]
  rfl

open Rehearsal in
theorem runOver_of_ended (h : plan options fresh files command = .ended outcome) (w : World)
    (network : Network) :
    runOver w network options fresh files command = ((outcome, files), w) := by
  rw [runOver, run, h]
  rfl

/-- The plan of a signature that is not over at once is that of a ceremony for what the files and
the arguments tell. -/
theorem plan_sign_cases (options : Options) (fresh : SessionId) (files : Files)
    (id digest : String) (requested : Option String) (chainId : Option UInt64) :
    (∃ failure, plan options fresh files (.sign id digest requested chainId) =
      .ended (.failed failure)) ∨
    ∃ coordinator wallet hash session share, load options files id = .ok wallet ∧
      Digest.ofText digest = .ok hash ∧
      plan options fresh files (.sign id digest requested chainId) =
        .ceremony coordinator (.sign session share hash wallet.address chainId) := by
  cases hplan : plan options fresh files (.sign id digest requested chainId) with
  | ended outcome =>
    rw [plan, ofPrepared_eq_ended_iff] at hplan
    obtain ⟨failure, -, rfl⟩ := hplan
    exact .inl ⟨failure, rfl⟩
  | ceremony coordinator job =>
    rw [plan, ofPrepared_eq_ceremony_iff, planSign_eq_ok_iff] at hplan
    obtain ⟨-, wallet, hash, session, share, hload, hdigest, -, -, rfl⟩ := hplan
    exact .inr ⟨coordinator, wallet, hash, session, share, hload, hdigest, rfl⟩

/-! ## What is printed -/

/-- `Delivers options files id digest chainId outcome after`: the run has printed a signature over
the digest that recovers to the address of the wallet, and has left the files alone. -/
def Delivers (options : Options) (files : Files) (id digest : String) (chainId : Option UInt64)
    (outcome : Outcome) (after : Files) : Prop :=
  after = files ∧ ∃ wallet hash sig, load options files id = .ok wallet ∧
    Digest.ofText digest = .ok hash ∧ CanonicalSignature.Signs sig hash wallet.address ∧
      Prints outcome.lines sig chainId

/-- A run succeeds exactly if nothing has failed. -/
theorem status_eq_zero_iff {outcome : Outcome} : outcome.status = 0 ↔ outcome.failure = none := by
  rw [Outcome.status]
  cases outcome.failure <;> simp

/-- A ceremony for a signature comes to what its encoded signature is turned into. -/
theorem conclude_sign_eq_ok_iff (session : SessionId) (share : Bytes) {hash : Bytes}
    {address : String} {raw : RawSignature} {sig : CanonicalSignature} :
    (Call.sign session share hash address).conclude (.sign raw) = .ok (.canonical sig) ↔
      CanonicalSignature.ofDer raw.der hash address = .ok sig := by
  simp only [Call.conclude, CeremonyResult.expectSignature, bind, Except.bind, Functor.map]
  cases CanonicalSignature.ofDer raw.der hash address <;> simp [Except.map]

/-- A call for a signature is told of none but those for its address. -/
theorem signs_of_toldAt {clock : Clock} {now : Nat} {config : Config} {events : List Event}
    {session : SessionId} {share hash : Bytes} {address : String} {sig : CanonicalSignature}
    (h : (Call.sign session share hash address).toldAt clock now config events =
      some (.ok (.canonical sig))) : sig.Signs hash address := by
  obtain ⟨-, result, -, hconclude⟩ := Call.toldAt_eq_ok_iff.1 h
  cases result with
  | keygen key => cases hconclude
  | sign raw =>
    exact CanonicalSignature.signs_of_ofDer ((conclude_sign_eq_ok_iff session share).1 hconclude)

/-- What follows a ceremony delivers a signature, or fails. -/
theorem delivers_of_finish {session : SessionId} {share hash : Bytes} {wallet : Wallet}
    {answer : Except Error Answer} (hload : load options files id = .ok wallet)
    (hdigest : Digest.ofText digest = .ok hash)
    (hanswer : ∀ sig, answer = .ok (.canonical sig) → sig.Signs hash wallet.address)
    (hfinish : (Job.sign session share hash wallet.address chainId).finish options files answer =
      (outcome, after)) (hstatus : outcome.status = 0) :
    Delivers options files id digest chainId outcome after := by
  have hnone := status_eq_zero_iff.1 hstatus
  cases answer with
  | error e =>
    obtain ⟨rfl, -⟩ := Prod.mk.inj hfinish
    cases hnone
  | ok answer =>
    cases answer with
    | key key =>
      obtain ⟨rfl, -⟩ := Prod.mk.inj hfinish
      cases hnone
    | raw sig =>
      obtain ⟨rfl, -⟩ := Prod.mk.inj hfinish
      cases hnone
    | canonical sig =>
      obtain ⟨rfl, rfl⟩ := Prod.mk.inj hfinish
      have hsigns := hanswer sig rfl
      rcases showSignature_cases hsigns.recoveryId chainId with ⟨-, -, hprints⟩ | ⟨-, hfails⟩
      · exact ⟨rfl, wallet, hash, sig, hload, hdigest, hsigns, hprints⟩
      · rw [hfails] at hnone
        cases hnone

/-- A run that succeeds delivers a signature, whatever happens to its ceremony. -/
theorem delivers_of_runThrough {clock : Clock} {now : Nat} {events : List Event}
    (h : runThrough clock now events options fresh files (.sign id digest requested chainId) =
      some (outcome, after)) (hstatus : outcome.status = 0) :
    Delivers options files id digest chainId outcome after := by
  have hruns := runThrough_eq_some_iff.1 h
  rcases plan_sign_cases options fresh files id digest requested chainId with
    ⟨failure, hplan⟩ | ⟨coordinator, wallet, hash, session, share, hload, hdigest, hplan⟩
  · rcases hruns with ⟨hended, -⟩ | ⟨_, _, _, hceremony, -⟩
    · obtain rfl := Plan.ended.inj (hplan.symm.trans hended)
      cases hstatus
    · cases hplan.symm.trans hceremony
  · rcases hruns with ⟨hended, -⟩ | ⟨_, _, answer, hceremony, htold, hfinish⟩
    · cases hplan.symm.trans hended
    · obtain ⟨rfl, rfl⟩ := Plan.ceremony.inj (hplan.symm.trans hceremony)
      refine delivers_of_finish hload hdigest (fun sig hsig => ?_) hfinish hstatus
      rw [hsig] at htold
      exact signs_of_toldAt htold

open Rehearsal in
/-- A run that succeeds delivers a signature, whatever network it is over. -/
theorem delivers_of_runOver {hub : Hub} (hs : hub.Sound) {frames : List (Nat × List Outside)}
    {pieces : List Piece} {w w' : World} (hreached : World.Reached hub frames pieces w)
    {network : Network}
    (h : runOver w network options fresh files (.sign id digest requested chainId) =
      ((outcome, after), w')) (hstatus : outcome.status = 0) :
    Delivers options files id digest chainId outcome after := by
  rcases plan_sign_cases options fresh files id digest requested chainId with
    ⟨failure, hplan⟩ | ⟨coordinator, wallet, hash, session, share, hload, hdigest, hplan⟩
  · rw [runOver_of_ended hplan] at h
    obtain ⟨rfl, -⟩ := Prod.mk.inj (Prod.mk.inj h).1
    cases hstatus
  · rw [runOver_of_ceremony hplan] at h
    have htold := hreached.told_playOver hs network options.controlPlane options.broker coordinator
      (Job.sign session share hash wallet.address chainId).call
    generalize w.playOver network options.controlPlane options.broker coordinator.config
      (Job.sign session share hash wallet.address chainId).call = played at h htold
    refine delivers_of_finish hload hdigest (fun sig hsig => ?_) (Prod.mk.inj h).1 hstatus
    rcases htold with ⟨events, htold⟩ | htime
    · rw [hsig] at htold
      exact signs_of_toldAt htold
    · cases htime.symm.trans hsig

/-- **What a run prints that signs.** Take any options, files and arguments. A run that ends with
success, whatever happens to its ceremony and over whatever network, has printed a signature over
the digest that recovers to the address of the wallet, and its value for the chain; no file has
changed. Once the ceremony has given a signature, the run fails exactly if 64 bits do not hold that
value, and then prints nothing. -/
theorem printed_signature (options : Options) (fresh : SessionId) (files : Files)
    (id digest : String) (requested : Option String) (chainId : Option UInt64) :
    (∀ clock now events outcome after,
      runThrough clock now events options fresh files (.sign id digest requested chainId) =
        some (outcome, after) →
      outcome.status = 0 → Delivers options files id digest chainId outcome after) ∧
    (∀ capacity earlier frames pieces w network outcome after w',
      Rehearsal.World.Reached ((Hub.new capacity).run earlier).2 frames pieces w →
      runOver w network options fresh files (.sign id digest requested chainId) =
        ((outcome, after), w') →
      outcome.status = 0 → Delivers options files id digest chainId outcome after) ∧
    ∀ clock now events coordinator call sig,
      asked? options fresh files (.sign id digest requested chainId) = some (coordinator, call) →
      call.toldAt clock now coordinator.config events = some (.ok (.canonical sig)) →
      ∃ outcome, runThrough clock now events options fresh files
          (.sign id digest requested chainId) = some (outcome, files) ∧
        (outcome.status ≠ 0 ↔ ∃ chain, chainId = some chain ∧
          2 ^ 64 - 1 < 35 + 2 * chain.toNat + sig.recoveryId.toNat) ∧
        (outcome.status ≠ 0 → outcome = .failed .chainIdTooLarge) := by
  refine ⟨fun _ _ _ _ _ => delivers_of_runThrough, fun capacity earlier _ _ _ _ _ _ _ hreached =>
    delivers_of_runOver (Hub.sound_run (Hub.sound_new capacity) earlier) hreached,
    fun clock now events coordinator call sig hasked htold => ?_⟩
  obtain ⟨job, hplan, rfl⟩ := (asked?_eq_some_iff _ _ _ _).1 hasked
  rcases plan_sign_cases options fresh files id digest requested chainId with
    ⟨failure, hended⟩ | ⟨_, wallet, hash, session, share, hload, hdigest, hceremony⟩
  · cases hplan.symm.trans hended
  obtain ⟨rfl, rfl⟩ := Plan.ceremony.inj (hplan.symm.trans hceremony)
  have hsigns := signs_of_toldAt htold
  refine ⟨showSignature sig chainId,
    runThrough_eq_some_iff.2 (.inr ⟨_, _, _, hplan, htold, rfl⟩), ?_⟩
  have hvalue := CanonicalSignature.size_le_value_iff hsigns.recoveryId chainId
  rcases showSignature_cases hsigns.recoveryId chainId with ⟨hfits, hnone, -⟩ | ⟨hlarge, hfails⟩
  · have hstatus : (showSignature sig chainId).status = 0 := status_eq_zero_iff.2 hnone
    exact ⟨iff_of_false (absurd hstatus) (mt hvalue.2 (Nat.not_le.2 hfits)), absurd hstatus⟩
  · have hstatus : (showSignature sig chainId).status ≠ 0 := by rw [hfails]; decide
    exact ⟨iff_of_true hstatus (hvalue.1 hlarge), fun _ => hfails⟩

end

/-! ## A signature that is printed -/

/-- A digest of 32 bytes 42. -/
def thirdDigest : String :=
  "0x2a2a2a2a2a2a2a2a2a2a2a2a2a2a2a2a2a2a2a2a2a2a2a2a2a2a2a2a2a2a2a2a"

/-- The files of a directory that keeps a wallet of the session `w1`. -/
def keptFiles (address : String) (share : Bytes) : Files :=
  [(walletPath .standard firstSession, ⟨(ofKey firstSession ⟨share, address⟩).render, true⟩)]

theorem load_keptFiles (address : String) (share : Bytes) :
    load .standard (keptFiles address share) "w1" = .ok (ofKey firstSession ⟨share, address⟩) := by
  rw [show "w1" = firstSession.text from rfl, load_text]
  simp [keptFiles, Files.read?, Except.mapError]

/-- A run with these files asks for a signature over the digest. -/
theorem exists_plan_keptFiles (address : String) (share : Bytes) (chainId : Option UInt64) :
    ∃ coordinator, coordinator.config.subscribeFirst = false ∧
      plan .standard firstSession (keptFiles address share) (.sign "w1" thirdDigest none chainId) =
        .ceremony coordinator
          (.sign firstSession share (List.replicate 32 42) address chainId) := by
  obtain ⟨coordinator, hcoordinator, hfirst⟩ :
      ∃ coordinator, Options.standard.coordinator = .ok coordinator ∧
        coordinator.config.subscribeFirst = false := ⟨_, rfl, rfl⟩
  have hhash : Digest.ofText thirdDigest = .ok (List.replicate 32 42) := by decide +kernel
  refine ⟨coordinator, hfirst, ?_⟩
  rw [plan, ofPrepared_eq_ceremony_iff, planSign_eq_ok_iff]
  exact ⟨hcoordinator, _, _, firstSession, share, load_keptFiles address share, hhash, rfl,
    shareBytes_ofKey _ _, rfl⟩

/-- The address of the key whose secret is three. -/
def thirdAddress : String :=
  Custody.address (Point.mul 3 generator)

/-- The files of a directory that keeps a wallet for this address. -/
def thirdFiles (share : Bytes) : Files :=
  keptFiles thirdAddress share

/-- The trigger is taken and the subscription is open; then something that is no result is
published, and a signature that is not low. -/
def thirdEvents : List Event :=
  [.acknowledged, .attached, .message "heartbeat",
    .message (Json.Value.object
      (CeremonyResult.sign ⟨Der.write CanonicalSignature.highPair⟩).members).render]

/-- What a call is told whose ceremony meets these events. -/
theorem toldAt_thirdEvents {coordinator : Coordinator}
    (hfirst : coordinator.config.subscribeFirst = false) (session : SessionId) (share : Bytes) :
    ∃ sig, (Call.sign session share (List.replicate 32 42) thirdAddress).toldAt .standard 0
      coordinator.config thirdEvents = some (.ok (.canonical sig)) := by
  have hlength : (List.replicate 32 (42 : UInt8)).length = hashLength := rfl
  obtain ⟨id, -, hof, -⟩ := CanonicalSignature.ofDer_write_of_isSignature hlength
    CanonicalSignature.three_ne_zero CanonicalSignature.isSignature_highPair
  let call : Call := .sign session share (List.replicate 32 42) thirdAddress
  have hgood : ¬ call.HasBadDigest := by
    rintro ⟨hash, hdigest, hbad⟩
    obtain rfl : List.replicate 32 42 = hash := Option.some.inj hdigest
    exact hbad rfl
  have hclock : 0 + Config.maxTimeout ≤ Clock.standard.last := by decide +kernel
  obtain ⟨request, hrequest, haccept⟩ := Call.accept_of_valid coordinator.valid hclock hgood
  have hheartbeat : resultOf? .sign "heartbeat" = none := by decide +kernel
  have hresult : resultOf? .sign (Json.Value.object
      (CeremonyResult.sign ⟨Der.write CanonicalSignature.highPair⟩).members).render =
        some (.sign ⟨Der.write CanonicalSignature.highPair⟩) := by decide +kernel
  refine ⟨CanonicalSignature.candidate CanonicalSignature.highPair id, ?_⟩
  have hcourse : (call.course coordinator.config thirdEvents).1 =
      .finished (.returned (.ok (.sign ⟨Der.write CanonicalSignature.highPair⟩))) := by
    rw [Call.course_of_triggerFirst hrequest hfirst]
    simp [thirdEvents, Ceremony.run, Ceremony.step, Ceremony.afterWait, Wait.step, Wait.outcome,
      Call.ceremony, Call.channel, Call.purpose, call, hheartbeat, hresult]
  exact Call.toldAt_eq_ok_iff.2
    ⟨⟨request, haccept⟩, _, hcourse, (conclude_sign_eq_ok_iff session share).2 hof⟩

/-- A run with a wallet for this address asks for a signature over the digest, and is told one. -/
theorem exists_told_third (share : Bytes) (chainId : Option UInt64) :
    ∃ coordinator call sig,
      asked? .standard firstSession (thirdFiles share)
          (.sign "w1" thirdDigest none chainId) = some (coordinator, call) ∧
        call.toldAt .standard 0 coordinator.config thirdEvents = some (.ok (.canonical sig)) := by
  obtain ⟨coordinator, hfirst, hplan⟩ := exists_plan_keptFiles thirdAddress share chainId
  obtain ⟨sig, htold⟩ := toldAt_thirdEvents hfirst firstSession share
  exact ⟨coordinator, _, sig, (asked?_eq_some_iff _ _ _ _).2 ⟨_, hplan, rfl⟩, htold⟩

/-- The signature is printed for a small chain id, and for the largest there is only a failure. -/
theorem printed_signature_of_third :
    (∃ outcome, runThrough .standard 0 thirdEvents .standard firstSession (thirdFiles [1, 2, 3])
        (.sign "w1" thirdDigest none (some 1)) = some (outcome, thirdFiles [1, 2, 3]) ∧
      Delivers .standard (thirdFiles [1, 2, 3]) "w1" thirdDigest (some 1) outcome
        (thirdFiles [1, 2, 3])) ∧
    runThrough .standard 0 thirdEvents .standard firstSession (thirdFiles [1, 2, 3])
        (.sign "w1" thirdDigest none (some lastChain)) =
      some (.failed .chainIdTooLarge, thirdFiles [1, 2, 3]) := by
  constructor
  · obtain ⟨coordinator, call, sig, hasked, htold⟩ := exists_told_third [1, 2, 3] (some 1)
    obtain ⟨hprinted, -, hends⟩ :=
      printed_signature .standard firstSession (thirdFiles [1, 2, 3]) "w1" thirdDigest none (some 1)
    obtain ⟨outcome, hrun, hfails, -⟩ := hends .standard 0 thirdEvents _ _ sig hasked htold
    have hstatus : outcome.status = 0 := by
      by_contra hstatus
      obtain ⟨chain, hchain, hlarge⟩ := hfails.1 hstatus
      have hid := sig.recoveryId.toNat_lt
      obtain rfl := Option.some.inj hchain
      rw [show (1 : UInt64).toNat = 1 from rfl] at hlarge
      omega
    exact ⟨outcome, hrun, hprinted .standard 0 thirdEvents outcome _ hrun hstatus⟩
  · obtain ⟨coordinator, call, sig, hasked, htold⟩ := exists_told_third [1, 2, 3] (some lastChain)
    obtain ⟨-, -, hends⟩ := printed_signature .standard firstSession (thirdFiles [1, 2, 3]) "w1"
      thirdDigest none (some lastChain)
    obtain ⟨outcome, hrun, hfails, hlarge⟩ := hends .standard 0 thirdEvents _ _ sig hasked htold
    have hstatus : outcome.status ≠ 0 := by
      refine hfails.2 ⟨lastChain, rfl, ?_⟩
      rw [show lastChain.toNat = 18446744073709551615 from rfl]
      omega
    rw [hrun, hlarge hstatus]

end Wallet

end Custody
