import Custody.Ceremony.Call
import Custody.Wallet.Arguments
import Custody.Wallet.Basic
import Custody.Wallet.Digest
import Custody.Wallet.Files
/-!
# Runs of the wallet program

A run makes one wallet, signs one digest or shows one wallet. What can be decided without the
cluster is decided first (`plan`); then there is at most one ceremony, and its answer decides the
rest (`Job.finish`). A wallet is written only after the ceremony that made it, and nothing else
changes a file.
-/

namespace Custody.Wallet

/-- Why a run fails. -/
inductive Failure
  | badWalletId (fault : SessionId.Fault)
  /-- There is no file at the path. -/
  | missingWallet (path : String)
  /-- The file at the path keeps no wallet. -/
  | malformedWallet (path : String)
  | badDigest (fault : Digest.Fault)
  /-- The share of the wallet to sign with cannot be read. -/
  | badSigningShare (fault : Text.Base64.Fault)
  /-- The share of the wallet to show cannot be read. -/
  | badShownShare (fault : Text.Base64.Fault)
  /-- The arguments are unfit for a ceremony, or the ceremony has failed. -/
  | ceremony (e : Error)
  /-- The signature has no `v` value for the chain. -/
  | chainIdTooLarge
  deriving DecidableEq, Repr

namespace Failure

/-- What a failure is. -/
def message : Failure → String
  | badWalletId _ => "invalid wallet id"
  | missingWallet path => "reading wallet file " ++ path
  | malformedWallet path => "no wallet in " ++ path
  | badDigest fault => fault.message
  | badSigningShare _ => "wallet share is not valid base64"
  | badShownShare fault => fault.message
  | ceremony e => e.message
  | chainIdTooLarge => "Chain id too large for a v value"

/-- What has brought a failure about. -/
def cause? : Failure → Option String
  | badWalletId fault => some fault.toError.message
  | missingWallet _ => some "No such file or directory (os error 2)"
  | badSigningShare fault => some fault.message
  | _ => none

/-- The lines of a cause, each behind four spaces. -/
def indented (cause : String) : String :=
  "    " ++ cause.replace "\n" "\n    "

/-- What the user is told. -/
def report (failure : Failure) : String :=
  "Error: " ++ failure.message ++
    match failure.cause? with
    | none => ""
    | some cause => "\n\nCaused by:\n" ++ indented cause

end Failure

/-- How a run ends. -/
structure Outcome where
  /-- What has been printed. -/
  lines : List String
  failure : Option Failure
  deriving DecidableEq, Repr

namespace Outcome

/-- An end with a failure and nothing printed. -/
def failed (failure : Failure) : Outcome :=
  ⟨[], some failure⟩

/-- The status that the system is told. -/
def status (outcome : Outcome) : Nat :=
  if outcome.failure.isSome then 1 else 0

end Outcome

/-! ## Before the ceremony -/

/-- The coordinator with the options of a run. -/
def Options.coordinator (options : Options) : Except Failure Coordinator := do
  let config ← (Config.ofParties options.parties options.threshold).mapError fun fault =>
    .ceremony fault.toError
  let config := { config with
    timeout := options.timeout * Config.second
    subscribeFirst := options.subscribeFirst }
  (Coordinator.ofConfig config).mapError fun fault => .ceremony fault.toError

/-- The session that a run asks for, or else the one made up for it. -/
def sessionOr (fresh : SessionId) : Option String → Except Failure SessionId
  | none => .ok fresh
  | some text => (SessionId.ofText text).mapError fun fault => .ceremony fault.toError

/-- The path of the wallet of a session. -/
def walletPath (options : Options) (session : SessionId) : String :=
  pathIn options.directory (fileName session)

/-- The wallet with an id. -/
def load (options : Options) (files : Files) (id : String) : Except Failure Wallet := do
  let session ← (SessionId.ofText id).mapError .badWalletId
  let path := walletPath options session
  match files.read? path with
  | none => throw (.missingWallet path)
  | some text => (Wallet.ofText text).mapError fun _ => .malformedWallet path

/-- What a ceremony is started for. -/
inductive Job
  | keygen (session : SessionId)
  | sign (session : SessionId) (share digest : Bytes) (address : String) (chainId : Option UInt64)
  deriving DecidableEq

/-- What the coordinator is asked for. -/
def Job.call : Job → Call
  | keygen session => .createWallet session
  | sign session share digest address _ => .sign session share digest address

/-- What a run comes to without the cluster. -/
inductive Plan
  | ended (outcome : Outcome)
  | ceremony (coordinator : Coordinator) (job : Job)

/-- Prepares the making of a wallet. -/
def planKeygen (options : Options) (fresh : SessionId) (session : Option String) :
    Except Failure (Coordinator × Job) := do
  let coordinator ← options.coordinator
  let session ← sessionOr fresh session
  return (coordinator, .keygen session)

/-- Prepares a signature. -/
def planSign (options : Options) (fresh : SessionId) (files : Files) (id digest : String)
    (session : Option String) (chainId : Option UInt64) : Except Failure (Coordinator × Job) := do
  let coordinator ← options.coordinator
  let wallet ← load options files id
  let digest ← (Digest.ofText digest).mapError .badDigest
  let session ← sessionOr fresh session
  let share ← wallet.shareBytes.mapError .badSigningShare
  return (coordinator, .sign session share digest wallet.address chainId)

/-- Shows a wallet. -/
def showWallet (options : Options) (files : Files) (id : String) : Outcome :=
  match load options files id with
  | .error failure => .failed failure
  | .ok wallet =>
    let lines := ["Wallet Info:", "  Session: " ++ wallet.session, "  Address: " ++ wallet.address]
    match wallet.shareBytes with
    | .error fault => ⟨lines, some (.badShownShare fault)⟩
    | .ok share => ⟨lines ++ [s!"  Share: {share.length} bytes"], none⟩

/-- A prepared ceremony, or the end where there is none. -/
def Plan.ofPrepared : Except Failure (Coordinator × Job) → Plan
  | .ok (coordinator, job) => .ceremony coordinator job
  | .error failure => .ended (.failed failure)

/-- What a command comes to without the cluster. -/
def plan (options : Options) (fresh : SessionId) (files : Files) : Command → Plan
  | .keygen session => .ofPrepared (planKeygen options fresh session)
  | .sign id digest session chainId =>
    .ofPrepared (planSign options fresh files id digest session chainId)
  | .info id => .ended (showWallet options files id)

/-! ## After the ceremony -/

/-- Keeps a new wallet. -/
def keep (options : Options) (files : Files) (session : SessionId) (key : KeyMaterial) :
    Outcome × Files :=
  let wallet := Wallet.ofKey session key
  (⟨["Session: " ++ session.text, "Address: " ++ wallet.address], none⟩,
    files.write (walletPath options session) wallet.render)

/-- Shows a signature. -/
def showSignature (sig : CanonicalSignature) (chainId : Option UInt64) : Outcome :=
  match sig.v chainId with
  | none => .failed .chainIdTooLarge
  | some v =>
    ⟨["Signature:", "  r: " ++ Text.Hex.encode sig.r.val, "  s: " ++ Text.Hex.encode sig.s.val,
      "  v: " ++ toString v.toNat, "  bytes: " ++ Text.Hex.encode sig.toBytes], none⟩

/-- What the answer of a ceremony brings about. -/
def Job.finish (options : Options) (files : Files) (job : Job) (answer : Except Error Answer) :
    Outcome × Files :=
  match job, answer with
  | keygen session, .ok (.key key) => keep options files session key
  | sign _ _ _ _ chainId, .ok (.canonical sig) => (showSignature sig chainId, files)
  | _, .error e => (.failed (.ceremony e), files)
  | keygen _, .ok _ => (.failed (.ceremony (CeremonyResult.mismatch .keygen .sign)), files)
  | sign _ _ _ _ _, .ok _ => (.failed (.ceremony (CeremonyResult.mismatch .sign .keygen)), files)

/-- A run over a network: `perform` holds a ceremony. -/
def run {m : Type → Type} [Monad m] (perform : Coordinator → Call → m (Except Error Answer))
    (options : Options) (fresh : SessionId) (files : Files) (command : Command) :
    m (Outcome × Files) :=
  match plan options fresh files command with
  | .ended outcome => pure (outcome, files)
  | .ceremony coordinator job => do
    let answer ← perform coordinator job.call
    return job.finish options files answer

end Custody.Wallet
