import Custody.Session.Purpose
/-!
# Results of ceremonies

A key generation gives the caller's key share and the address of the wallet; a signing gives an
encoded signature. Diagnostics show neither share nor signature.
-/

namespace Custody

/-- What a key generation gives. -/
structure KeyMaterial where
  share : Bytes
  address : String
  deriving DecidableEq

/-- Key material as diagnostics show it, without the share. -/
def KeyMaterial.diagnostic (key : KeyMaterial) : String :=
  "KeyMaterial \x7b share: \"<redacted>\", address: " ++ Text.quote key.address ++ " \x7d"

/-- The encoded signature that a signing gives. -/
structure RawSignature where
  der : Bytes
  deriving DecidableEq

/-- A signature as diagnostics show it: only its length. -/
def RawSignature.diagnostic (sig : RawSignature) : String :=
  s!"RawSignature({sig.der.length} bytes)"

/-- What a ceremony gives. -/
inductive CeremonyResult
  | keygen (key : KeyMaterial)
  | sign (sig : RawSignature)
  deriving DecidableEq

namespace CeremonyResult

/-- The purpose of the ceremony that gives such a result. -/
def purpose : CeremonyResult → Purpose
  | keygen _ => .keygen
  | sign _ => .sign

/-- The error of a result of the wrong kind. -/
def mismatch (wanted got : Purpose) : Error :=
  .serialization s!"expected {wanted.name} result, got {got.name}"

/-- The result as key material. -/
def expectKeygen : CeremonyResult → Except Error KeyMaterial
  | keygen key => .ok key
  | sign _ => .error (mismatch .keygen .sign)

/-- The result as a signature. -/
def expectSignature : CeremonyResult → Except Error RawSignature
  | sign sig => .ok sig
  | keygen _ => .error (mismatch .sign .keygen)

end CeremonyResult

end Custody
