import Custody.Json.Record
import Custody.Json.Value
/-!
# Publish requests

What a cluster node posts to have a payload delivered.
-/

namespace Custody.Service

open Json

/-- A channel and a payload for it. -/
structure PublishRequest where
  channel : String
  payload : String
  deriving DecidableEq, Repr

namespace PublishRequest

/-- The fields of a request. -/
def fields : List Field :=
  [⟨"channel", Tree.isString, false⟩, ⟨"payload", Tree.isString, false⟩]

/-- Reads a request. -/
def ofTree (t : Tree) : Except Fault PublishRequest := do
  let found ← t.record fields
  match found.get? "channel" Tree.string?, found.get? "payload" Tree.string? with
  | some channel, some payload => return ⟨channel, payload⟩
  | _, _ => throw .mismatch

/-- The value that a request is sent as. -/
def toValue (request : PublishRequest) : Value :=
  .object [("channel", .string request.channel), ("payload", .string request.payload)]

end PublishRequest

end Custody.Service
