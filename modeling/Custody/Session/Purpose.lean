import Custody.Session.Id
/-!
# Purposes, actions and channels

A ceremony makes a key or a signature. Its purpose decides which action starts it on the cluster
and, together with the session id, on which channel its result is published.
-/

namespace Custody

/-- What a ceremony makes. -/
inductive Purpose
  | keygen
  | sign
  deriving DecidableEq, Repr

/-- What the cluster is asked to do. -/
inductive Action
  | initKeygen
  | initSign
  deriving DecidableEq, Repr

namespace Purpose

/-- All purposes. -/
def all : List Purpose := [keygen, sign]

/-- The name of a purpose. -/
def name : Purpose → String
  | keygen => "keygen"
  | sign => "sign"

/-- What stands before the session id in a channel name. -/
def channelStart : Purpose → String
  | keygen => "keygen:"
  | sign => "sign:"

/-- The action that starts a ceremony of this purpose. -/
def action : Purpose → Action
  | keygen => .initKeygen
  | sign => .initSign

/-- The purpose with the given name. -/
def ofName? (name : String) : Option Purpose :=
  all.find? fun purpose => purpose.name == name

end Purpose

namespace Action

/-- All actions. -/
def all : List Action := [initKeygen, initSign]

/-- The name of an action in requests. -/
def name : Action → String
  | initKeygen => "INIT_KEYGEN"
  | initSign => "INIT_SIGN"

/-- The name of an action in diagnostics. -/
def diagnostic : Action → String
  | initKeygen => "InitKeygen"
  | initSign => "InitSign"

/-- The purpose of the ceremony that an action starts. -/
def purpose : Action → Purpose
  | initKeygen => .keygen
  | initSign => .sign

/-- The action with the given name. -/
def ofName? (name : String) : Option Action :=
  all.find? fun action => action.name == name

end Action

/-- The channel that carries the result of one ceremony. -/
structure ChannelKey where
  purpose : Purpose
  session : SessionId
  deriving DecidableEq

/-- The name of a channel. -/
def ChannelKey.name (key : ChannelKey) : String :=
  key.purpose.channelStart ++ key.session.text

end Custody
