import Custody.Json.Record
import Custody.Json.Value
import Custody.Session.Basic
import Custody.Text.Base64
/-!
# Action requests

What the control plane is sent to start a ceremony. A signing request carries the digest and the
caller's key share. The share goes out on the wire and nowhere else: diagnostics show that there is
one, not what it is.
-/

namespace Custody

open Json

/-- A request that starts a ceremony. -/
structure ActionRequest where
  session : SessionId
  parties : List PartyId
  threshold : UInt32
  action : Action
  hash : Option Bytes
  share : Option Bytes
  deriving DecidableEq

namespace ActionRequest

/-- The request that starts a key generation. -/
def keygen (session : Session) : ActionRequest where
  session := session.id
  parties := session.parties
  threshold := session.threshold
  action := .initKeygen
  hash := none
  share := none

/-- The request that starts a signing, with the caller's share and the digest. -/
def sign (session : Session) (share hash : Bytes) : ActionRequest where
  session := session.id
  parties := session.parties
  threshold := session.threshold
  action := .initSign
  hash := some hash
  share := some share

/-! ## Wire form -/

/-- A member with bytes, left out where there are none. -/
def bytesMember (name : String) : Option Bytes → List (String × Value)
  | none => []
  | some b => [(name, .string (Text.Base64.encode b))]

/-- The value that a request is sent as. -/
def toValue (request : ActionRequest) : Value :=
  .object
    ([("session_id", .string request.session.text),
      ("parties", .array (request.parties.map fun p => .nat p.toNat)),
      ("threshold", .nat request.threshold.toNat),
      ("action", .string request.action.name)] ++
      bytesMember "msg_hash" request.hash ++ bytesMember "share_data" request.share)

/-- The text that a request is sent as. -/
def render (request : ActionRequest) : String :=
  request.toValue.render

/-- A session id. -/
def session? (t : Tree) : Option SessionId :=
  t.string?.bind fun text => (SessionId.ofText text).toOption

/-- A number of 32 bits. -/
def word32? (t : Tree) : Option UInt32 :=
  (t.natBelow? UInt32.size).map UInt32.ofNat

/-- An action. -/
def action? (t : Tree) : Option Action :=
  t.alternative?.bind Action.ofName?

/-- Bytes in Base64. -/
def bytes? (t : Tree) : Option Bytes :=
  t.string?.bind fun text => (Text.Base64.decode text).toOption

/-- The fields of a request. -/
def fields : List Field :=
  [⟨"session_id", fun t => (session? t).isSome, false⟩,
    ⟨"parties", fun t => (t.array? word32?).isSome, false⟩,
    ⟨"threshold", fun t => (word32? t).isSome, false⟩,
    ⟨"action", fun t => (action? t).isSome, false⟩,
    ⟨"msg_hash", fun t => (t.nullable? bytes?).isSome, true⟩,
    ⟨"share_data", fun t => (t.nullable? bytes?).isSome, true⟩]

/-- Reads a request. Neither the parties nor the threshold are checked. -/
def ofTree (t : Tree) : Except Fault ActionRequest := do
  let found ← t.record fields
  match found.get? "session_id" session?, found.get? "parties" (Tree.array? word32?),
      found.get? "threshold" word32?, found.get? "action" action? with
  | some session, some parties, some threshold, some action =>
    return {
      session, parties, threshold, action
      hash := (found.get? "msg_hash" (Tree.nullable? bytes?)).join
      share := (found.get? "share_data" (Tree.nullable? bytes?)).join }
  | _, _, _, _ => throw .mismatch

/-! ## Diagnostics -/

/-- An optional text as diagnostics show it. -/
def diagnosticOption : Option String → String
  | none => "None"
  | some text => "Some(" ++ Text.quote text ++ ")"

/-- A request as diagnostics show it, without the share. -/
def diagnostic (request : ActionRequest) : String :=
  "ActionRequest \x7b session_id: " ++ request.session.diagnostic ++
    ", parties: [" ++ ", ".intercalate (request.parties.map fun p => toString p.toNat) ++
    "], threshold: " ++ toString request.threshold.toNat ++
    ", action: " ++ request.action.diagnostic ++
    ", msg_hash: " ++ diagnosticOption (request.hash.map Text.Hex.encode) ++
    ", share_data: " ++ diagnosticOption (request.share.map fun _ => "<redacted>") ++ " \x7d"

end ActionRequest

end Custody
