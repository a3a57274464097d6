import Custody.Ceremony.Basic
import Custody.Config
import Custody.Signature
/-!
# Calls of a coordinator

A coordinator turns a caller's wish into a ceremony and the ceremony's result into an answer. A
call is checked before anything is sent (`Call.request`), and its result is converted after
(`Call.conclude`).
-/

namespace Custody

/-- One who runs ceremonies against a cluster, with a configuration that is fit for use. -/
structure Coordinator where
  config : Config
  valid : config.Valid

/-- The coordinator with a configuration, if that is fit for use. -/
def Coordinator.ofConfig (config : Config) : Except Config.Fault Coordinator :=
  match h : config.fault? with
  | some fault => .error fault
  | none => .ok ⟨config, Config.fault?_eq_none_iff.1 h⟩

/-- A clock, which can tell the moments up to a last one, in nanoseconds. -/
structure Clock where
  last : Nat

namespace Clock

/-- A clock that counts seconds in 63 bits. -/
def standard : Clock :=
  ⟨9223372036854775808 * Config.second - 1⟩

/-- The moment at which a ceremony that starts now has run out of time, if the clock can tell it. -/
def deadline (clock : Clock) (now timeout : Nat) : Except Error Nat :=
  if now + timeout ≤ clock.last then .ok (now + timeout)
  else .error (.invalidConfig "Ceremony timeout out of range")

end Clock

/-- What a caller asks of a coordinator. -/
inductive Call
  /-- Create a wallet. -/
  | createWallet (session : SessionId)
  /-- Sign a digest with a share and give the signature as the cluster made it. -/
  | signRaw (session : SessionId) (share hash : Bytes)
  /-- Sign a digest with a share and give the signature that recovers to an address. -/
  | sign (session : SessionId) (share hash : Bytes) (address : String)
  deriving DecidableEq

/-- What a call gives. -/
inductive Answer
  | key (key : KeyMaterial)
  | raw (sig : RawSignature)
  | canonical (sig : CanonicalSignature)
  deriving DecidableEq

namespace Call

/-- The session id of a call. -/
def session : Call → SessionId
  | createWallet session => session
  | signRaw session _ _ => session
  | sign session _ _ _ => session

/-- What the call's ceremony makes. -/
def purpose : Call → Purpose
  | createWallet _ => .keygen
  | signRaw _ _ _ => .sign
  | sign _ _ _ _ => .sign

/-- The channel of the call's ceremony. -/
def channel (call : Call) : ChannelKey :=
  ⟨call.purpose, call.session⟩

/-- The session of a call. -/
def scope (config : Config) (call : Call) : Except Error Session :=
  (Session.ofParties call.session call.purpose config.parties config.threshold).mapError
    Parties.Fault.toError

/-- The request of a signing call, if the digest has the right length. -/
def signRequest (config : Config) (call : Call) (share hash : Bytes) :
    Except Error ActionRequest :=
  if hash.length ≠ hashLength then
    .error (.invalidConfig s!"Message hash must be {hashLength} bytes, got {hash.length}")
  else
    (ActionRequest.sign · share hash) <$> call.scope config

/-- The request that a call sends, or why nothing is sent. -/
def request (config : Config) (call : Call) : Except Error ActionRequest :=
  match call with
  | createWallet _ => ActionRequest.keygen <$> call.scope config
  | signRaw _ share hash => call.signRequest config share hash
  | sign _ share hash _ => call.signRequest config share hash

/-- The request that a call sends which starts now, or why nothing is sent: its own check comes
first, then the clock has to tell its deadline. -/
def accept (clock : Clock) (now : Nat) (config : Config) (call : Call) :
    Except Error ActionRequest := do
  let request ← call.request config
  let _ ← clock.deadline now config.timeout
  return request

/-- The ceremony of a call. -/
def ceremony (config : Config) (call : Call) : Ceremony where
  channel := call.channel
  action := call.purpose.action
  plan := if config.subscribeFirst then .subscribeFirst else .triggerFirst

/-- What the caller is told of a ceremony's result. -/
def conclude (call : Call) (result : CeremonyResult) : Except Error Answer :=
  match call with
  | createWallet _ => .key <$> result.expectKeygen
  | signRaw _ _ _ => .raw <$> result.expectSignature
  | sign _ _ hash address => do
    let raw ← result.expectSignature
    .canonical <$> CanonicalSignature.ofDer raw.der hash address

end Call

end Custody
