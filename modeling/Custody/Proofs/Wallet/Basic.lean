import Custody.Proofs.Json.RoundTrip
import Custody.Proofs.Session.Id
import Custody.Proofs.Text.Base64
import Custody.Wallet.Run
/-!
# Wallets in files

A wallet is read back from the text that it is kept as (`Wallet.ofText_render`), with the bytes of
its share (`Wallet.shareBytes_ofKey`), and each session has a file name of its own
(`Wallet.fileName_injective`). What a run finds under an id is decided by the one file at that path
(`Wallet.load_text`). What a run asks of the network, if it asks anything, is `Wallet.asked?`.
-/

namespace Custody

open Json

namespace Wallet

theorem plain_toValue (wallet : Wallet) : Plain 1 wallet.toValue := by
  refine .object fun member hmember => ?_
  simp only [List.mem_cons, List.not_mem_nil, or_false] at hmember
  rcases hmember with rfl | rfl | rfl <;> exact .string _

theorem ofTree_tree (wallet : Wallet) : ofTree wallet.toValue.tree = .ok wallet := rfl

/-- A wallet is read back from the text that it is kept as. -/
@[simp] theorem ofText_render (wallet : Wallet) : ofText wallet.render = .ok wallet := by
  rw [ofText, render, ofText_renderLines wallet.plain_toValue, ofTree_tree]

/-- The wallet of a key generation holds the share that was delivered. -/
@[simp] theorem shareBytes_ofKey (session : SessionId) (key : KeyMaterial) :
    (ofKey session key).shareBytes = .ok key.share :=
  Text.Base64.decode_encode key.share

/-! ## Files of wallets -/

theorem fileName_injective : Function.Injective fileName := by
  intro session other h
  have hstart := (String.append_left_inj _).1 h
  exact SessionId.text_injective ((String.append_right_inj _).1 hstart)

theorem pathIn_inj {directory name other : String} :
    pathIn directory name = pathIn directory other ↔ name = other := by
  unfold pathIn
  split
  · exact String.append_right_inj _
  · exact String.append_right_inj _

/-- What is found under the id of a session is decided by the file at its path. -/
theorem load_text (options : Options) (files : Files) (session : SessionId) :
    load options files session.text =
      match files.read? (walletPath options session) with
      | none => .error (.missingWallet (walletPath options session))
      | some text =>
        (ofText text).mapError fun _ => .malformedWallet (walletPath options session) := by
  rw [load, SessionId.ofText_text]
  rfl

theorem lookup_write_of_ne (files : Files) {path other : String} (text : String)
    (h : other ≠ path) : (files.write path text).lookup other = files.lookup other := by
  induction files with
  | nil => grind [Files.write]
  | cons entry rest ih => grind [Files.write]

/-! ## Prepared ceremonies -/

theorem bind_eq_ok_iff {ε α β : Type} {x : Except ε α} {f : α → Except ε β} {b : β} :
    x >>= f = .ok b ↔ ∃ a, x = .ok a ∧ f a = .ok b := by
  cases x with
  | error e => simp [bind, Except.bind]
  | ok a => simp [bind, Except.bind]

theorem mapError_eq_ok_iff {ε ε' α : Type} {x : Except ε α} {f : ε → ε'} {a : α} :
    x.mapError f = .ok a ↔ x = .ok a := by
  cases x with
  | error e => simp [Except.mapError]
  | ok b => simp [Except.mapError]

/-- Only under the id of a session a wallet is found. -/
theorem exists_session_of_load {options : Options} {files : Files} {id : String} {wallet : Wallet}
    (h : load options files id = .ok wallet) : ∃ session : SessionId, session.text = id := by
  simp only [load, bind_eq_ok_iff, mapError_eq_ok_iff] at h
  obtain ⟨session, hsession, -⟩ := h
  exact ⟨session, SessionId.ofText_eq_ok_iff.1 hsession⟩

theorem planKeygen_eq_ok_iff {options : Options} {fresh : SessionId} {requested : Option String}
    {coordinator : Coordinator} {job : Job} :
    planKeygen options fresh requested = .ok (coordinator, job) ↔
      options.coordinator = .ok coordinator ∧
        ∃ session, sessionOr fresh requested = .ok session ∧ job = .keygen session := by
  simp only [planKeygen, bind_eq_ok_iff]
  constructor
  · rintro ⟨_, hcoordinator, session, hsession, h⟩
    obtain ⟨rfl, rfl⟩ := Prod.mk.inj (Except.ok.inj h)
    exact ⟨hcoordinator, session, hsession, rfl⟩
  · rintro ⟨hcoordinator, session, hsession, rfl⟩
    exact ⟨coordinator, hcoordinator, session, hsession, rfl⟩

theorem planSign_eq_ok_iff {options : Options} {fresh : SessionId} {files : Files}
    {id digest : String} {requested : Option String} {chainId : Option UInt64}
    {coordinator : Coordinator} {job : Job} :
    planSign options fresh files id digest requested chainId = .ok (coordinator, job) ↔
      options.coordinator = .ok coordinator ∧ ∃ wallet hash session share,
        load options files id = .ok wallet ∧ Digest.ofText digest = .ok hash ∧
          sessionOr fresh requested = .ok session ∧ wallet.shareBytes = .ok share ∧
            job = .sign session share hash wallet.address chainId := by
  simp only [planSign, bind_eq_ok_iff, mapError_eq_ok_iff]
  constructor
  · rintro ⟨_, hcoordinator, wallet, hwallet, hash, hhash, session, hsession, share, hshare, h⟩
    obtain ⟨rfl, rfl⟩ := Prod.mk.inj (Except.ok.inj h)
    exact ⟨hcoordinator, wallet, hash, session, share, hwallet, hhash, hsession, hshare, rfl⟩
  · rintro ⟨hcoordinator, wallet, hash, session, share, hwallet, hhash, hsession, hshare, rfl⟩
    exact ⟨coordinator, hcoordinator, wallet, hwallet, hash, hhash, session, hsession, share,
      hshare, rfl⟩

theorem ofPrepared_eq_ceremony_iff {prepared : Except Failure (Coordinator × Job)}
    {coordinator : Coordinator} {job : Job} :
    Plan.ofPrepared prepared = .ceremony coordinator job ↔ prepared = .ok (coordinator, job) := by
  cases prepared <;> simp [Plan.ofPrepared, Prod.ext_iff]

theorem ofPrepared_eq_ended_iff {prepared : Except Failure (Coordinator × Job)}
    {outcome : Outcome} :
    Plan.ofPrepared prepared = .ended outcome ↔
      ∃ failure, prepared = .error failure ∧ outcome = .failed failure := by
  cases prepared <;> simp [Plan.ofPrepared, eq_comm]

/-! ## What follows a ceremony -/

/-- What follows a ceremony does not depend on the share, and leaves the files alone. -/
theorem exists_finish_sign (session : SessionId) (hash : Bytes) (address : String)
    (chainId : Option UInt64) (answer : Except Error Answer) :
    ∃ outcome, ∀ (options : Options) (files : Files) (share : Bytes),
      (Job.sign session share hash address chainId).finish options files answer =
        (outcome, files) := by
  cases answer with
  | error e => exact ⟨_, fun _ _ _ => rfl⟩
  | ok answer => cases answer <;> exact ⟨_, fun _ _ _ => rfl⟩

/-! ## Questions to the network -/

section Questions

variable (options : Options) (fresh : SessionId) (files : Files) (command : Command)

/-- What a run asks of the network, if it asks anything: the ceremony that it would hold. -/
def asked? : Option (Coordinator × Call) :=
  match run (fun coordinator call => (throw (coordinator, call) : Except _ _)) options fresh files
    command with
  | .error question => some question
  | .ok _ => none

theorem asked?_eq :
    asked? options fresh files command =
      match plan options fresh files command with
      | .ended _ => none
      | .ceremony coordinator job => some (coordinator, job.call) := by
  rw [asked?, run]
  cases plan options fresh files command <;> rfl

theorem asked?_eq_some_iff {coordinator : Coordinator} {call : Call} :
    asked? options fresh files command = some (coordinator, call) ↔
      ∃ job, plan options fresh files command = .ceremony coordinator job ∧ job.call = call := by
  rw [asked?_eq]
  cases plan options fresh files command <;> simp

end Questions

end Wallet

end Custody
