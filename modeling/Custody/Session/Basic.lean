import Custody.Session.Parties
import Custody.Session.Purpose
/-!
# Sessions

A session is the scope of one ceremony: its id, what it makes, and the parties that run it. The
type holds only party sets and thresholds that are fit for use.
-/

namespace Custody

/-- The scope of one ceremony. -/
structure Session where
  id : SessionId
  purpose : Purpose
  parties : List PartyId
  threshold : UInt32
  valid : Parties.Valid parties threshold

namespace Session

/-- The session of these parties, if they and the threshold are fit for use. -/
def ofParties (id : SessionId) (purpose : Purpose) (parties : List PartyId) (threshold : UInt32) :
    Except Parties.Fault Session :=
  match h : Parties.fault? parties threshold with
  | some fault => .error fault
  | none => .ok ⟨id, purpose, parties, threshold, Parties.fault?_eq_none_iff.1 h⟩

/-- The channel that carries the session's result. -/
def channel (session : Session) : ChannelKey :=
  ⟨session.purpose, session.id⟩

end Session

end Custody
