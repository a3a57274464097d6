import Custody.Hub.Basic
import Custody.Text.Quoted
/-!
# Subscriptions

A subscription is one listener's view of a channel: a stream of messages that ends or falls silent,
and a release that happens once, however the subscription is given up. After the release the stream
is empty.
-/

namespace Custody

/-- A subscription over messages that are known in advance. -/
structure Subscription where
  channel : String
  /-- The messages that have not been read. -/
  messages : List String
  /-- The stream ends after the messages; else it falls silent. -/
  ends : Bool
  isOpen : Bool
  /-- How often the subscription has been released. -/
  releases : Nat
  deriving DecidableEq, Repr

namespace Subscription

/-- A subscription that has just been opened. -/
def ofMessages (channel : String) (messages : List String) (ends : Bool) : Subscription :=
  ⟨channel, messages, ends, true, 0⟩

/-- What a listener finds. -/
def next (sub : Subscription) : Reading × Subscription :=
  match sub.messages with
  | message :: rest => (.payload message, { sub with messages := rest })
  | [] => (if sub.ends then .ended else .nothing, sub)

/-- Gives the subscription up. Only the first time counts. -/
def release (sub : Subscription) : Subscription :=
  if sub.isOpen then
    { sub with messages := [], ends := true, isOpen := false, releases := sub.releases + 1 }
  else
    sub

/-- A subscription as diagnostics show it. -/
def diagnostic (sub : Subscription) : String :=
  "Subscription \x7b channel: " ++ Text.quote sub.channel ++ ", open: " ++
    (if sub.isOpen then "true" else "false") ++ " \x7d"

theorem release_release (sub : Subscription) :
    sub.release.release = sub.release := by
  unfold release
  split <;> simp_all

end Subscription

end Custody
