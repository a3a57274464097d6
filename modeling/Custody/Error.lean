/-!
# Errors of a ceremony

What can go wrong between asking the cluster for a ceremony and holding its result. Each error
carries the text that says more, and `Error.message` is the whole line shown to a caller. Only a
deadline leaves open whether the ceremony still completes (`Error.outcomeUnknown`).
-/

namespace Custody

/-- Why an operation on the cluster has no result. -/
inductive Error
  /-- A session or a configuration was refused before anything was sent. -/
  | invalidConfig (reason : String)
  /-- The control plane refused the trigger, or did not acknowledge it in time. -/
  | triggerFailed (reason : String)
  /-- The deadline passed before the awaited thing arrived. -/
  | timeout (awaited : String)
  /-- The channel's stream ended before a result arrived. -/
  | channelClosed (channel : String)
  /-- The bytes of a signature could not be read. -/
  | malformedSignature (reason : String)
  /-- No recovery id gives the expected signer. -/
  | recoveryFailed (expected : String)
  /-- The subscription could not be opened, or a payload not be published. -/
  | broker (reason : String)
  /-- The control plane could not be reached. -/
  | transport (reason : String)
  /-- A text or value does not have the expected form. -/
  | serialization (reason : String)
  deriving DecidableEq, Repr

namespace Error

/-- The line shown to a caller. -/
def message : Error → String
  | invalidConfig reason => "Invalid configuration: " ++ reason
  | triggerFailed reason => "Trigger failed: " ++ reason
  | timeout awaited => "Timeout waiting for " ++ awaited
  | channelClosed channel => "Channel closed: " ++ channel
  | malformedSignature reason => "Malformed signature: " ++ reason
  | recoveryFailed expected => "Signature recovery failed: no candidate matches " ++ expected
  | broker reason => "Broker error: " ++ reason
  | transport reason => "Transport error: " ++ reason
  | serialization reason => "Serialization error: " ++ reason

/-- The ceremony may still complete on the cluster, so its session id must not be used again. -/
def outcomeUnknown : Error → Bool
  | timeout _ => true
  | _ => false

end Error

end Custody
