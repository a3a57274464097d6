import Custody.Json.Value
import Custody.Result
import Custody.Text.Base64
/-!
# Result envelopes

What the cluster publishes on a channel: JSON objects, some of which report progress and one of
which carries the result. Of an object only the members that are strings count, and of several
members with one name only the last (`Envelope.get?`). An envelope is a result for a purpose when
it has all the members that the purpose asks for; what their Base64 says decides whether it can be
used (`Envelope.completion`).
-/

namespace Custody

open Json

/-- An object read from a channel: its members in the order of the text. -/
structure Envelope where
  members : List (String × Value)

/-- What an envelope means to someone who waits for a result. -/
inductive Completion
  /-- Some required member is missing. -/
  | incomplete
  /-- The result. -/
  | complete (result : CeremonyResult)
  /-- The required members are there, but the payload cannot be decoded. -/
  | corrupt (reason : String)
  deriving DecidableEq

namespace Envelope

/-- The member with the key share, in Base64. -/
def shareData : String := "share_data"

/-- The member with the address. -/
def pubKey : String := "pub_key"

/-- The member with the encoded signature, in Base64. -/
def signature : String := "signature"

/-- The members that a result must have. -/
def requiredFields : Purpose → List String
  | .keygen => [shareData, pubKey]
  | .sign => [signature]

/-- The envelope of a payload, if that is an object. -/
def ofText? (payload : String) : Option Envelope :=
  match Value.ofText? payload with
  | some (.object members) => some ⟨members⟩
  | _ => none

/-- The last member with a name, if it is a string. -/
def get? (envelope : Envelope) (name : String) : Option String :=
  match envelope.members.reverse.lookup name with
  | some (.string s) => some s
  | _ => none

/-- All members that a result of the purpose must have are there. -/
def isComplete (envelope : Envelope) (purpose : Purpose) : Bool :=
  (requiredFields purpose).all fun name => (envelope.get? name).isSome

/-- The bytes of a member, or why they cannot be decoded. -/
def decodeMember (name text : String) : Except String Bytes :=
  match Text.Base64.decode text with
  | .ok b => .ok b
  | .error fault => .error (name ++ ": " ++ fault.message)

/-- What the envelope means for a ceremony of the purpose. -/
def completion (envelope : Envelope) : Purpose → Completion
  | .keygen =>
    match envelope.get? shareData, envelope.get? pubKey with
    | some share, some address =>
      match decodeMember shareData share with
      | .ok share => .complete (.keygen ⟨share, address⟩)
      | .error reason => .corrupt reason
    | _, _ => .incomplete
  | .sign =>
    match envelope.get? signature with
    | some text =>
      match decodeMember signature text with
      | .ok der => .complete (.sign ⟨der⟩)
      | .error reason => .corrupt reason
    | none => .incomplete

end Envelope

/-- The result that a payload carries for a purpose. -/
def resultOf? (purpose : Purpose) (payload : String) : Option CeremonyResult :=
  match Envelope.ofText? payload with
  | none => none
  | some envelope =>
    match envelope.completion purpose with
    | .complete result => some result
    | _ => none

end Custody
