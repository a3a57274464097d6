import Custody.Json.Record
import Custody.Json.Value
import Custody.Result
import Custody.Session.Id
import Custody.Text.Base64
/-!
# Wallets

What is kept of a key generation: the session that made the wallet, the wallet's address and the
caller's key share. A wallet is kept as JSON, with the share in Base64. It may be read although its
share cannot: the share is only decoded where it is needed.
-/

namespace Custody

open Json

/-- A wallet as it is kept. -/
structure Wallet where
  session : String
  address : String
  /-- The key share in Base64. -/
  share : String
  deriving DecidableEq

namespace Wallet

/-- The wallet of a key generation. -/
def ofKey (session : SessionId) (key : KeyMaterial) : Wallet :=
  ⟨session.text, key.address, Text.Base64.encode key.share⟩

/-- The bytes of the key share. -/
def shareBytes (wallet : Wallet) : Except Text.Base64.Fault Bytes :=
  Text.Base64.decode wallet.share

/-- The value that a wallet is written as. -/
def toValue (wallet : Wallet) : Value :=
  .object
    [("session_id", .string wallet.session), ("address", .string wallet.address),
      ("share_data", .string wallet.share)]

/-- The text that a wallet is kept as. -/
def render (wallet : Wallet) : String :=
  wallet.toValue.renderLines

/-- The fields of a wallet. -/
def fields : List Field :=
  [⟨"session_id", Tree.isString, false⟩, ⟨"address", Tree.isString, false⟩,
    ⟨"share_data", Tree.isString, false⟩]

/-- Reads a wallet. -/
def ofTree (t : Tree) : Except Fault Wallet := do
  let found ← t.record fields
  match found.get? "session_id" Tree.string?, found.get? "address" Tree.string?,
      found.get? "share_data" Tree.string? with
  | some session, some address, some share => return ⟨session, address, share⟩
  | _, _, _ => throw .mismatch

/-- Reads the text of a wallet. -/
def ofText (text : String) : Except Fault Wallet :=
  ofTree (Tree.ofText text)

/-- The name of the file that keeps the wallet of a session. -/
def fileName (session : SessionId) : String :=
  "share." ++ session.text ++ ".json"

end Wallet

end Custody
