import Custody.Ecdsa.Der
import Custody.Ecdsa.Recovery
import Custody.Error
import Custody.Hash.Keccak
import Custody.Json.Record
import Custody.Json.Value
import Custody.Text.Hex
/-!
# Signatures that a chain verifies

The cluster signs with a plain pair `(r, s)`. A chain wants the low form of the pair and a recovery
id that selects the signer's key, and the encoded pair holds no hint about that id:
`CanonicalSignature.ofDer` tries both candidates against the address that is known to have signed.

* `address` is the text of a key's address.
* `CanonicalSignature.recoverAddress` reads the signer's address off a signature alone.
* `CanonicalSignature.v` is the value that a transaction carries in place of the recovery id.
-/

namespace Custody

open Ecdsa Secp256k1

/-- The length of the digests that the cluster signs. -/
def hashLength : Nat := 32

/-- The address of a key: `0x` and the last twenty bytes of the hash of its coordinates. -/
def address (key : Point) : String :=
  "0x" ++ Text.Hex.encode ((Keccak.digest key.coordinates).drop 12)

/-- Two texts are the same but for the case of ASCII letters. -/
def sameButCase (a b : String) : Bool :=
  a.toList.map Char.toLower == b.toList.map Char.toLower

/-- A pair in fixed width with the id that selects the signer. -/
structure CanonicalSignature where
  r : Bytes32
  s : Bytes32
  recoveryId : UInt8
  deriving DecidableEq

namespace CanonicalSignature

/-- The bytes of `r`, then those of `s`, then the recovery id. -/
def toBytes (sig : CanonicalSignature) : Bytes :=
  sig.r.val ++ sig.s.val ++ [sig.recoveryId]

/-- The `v` value of a transaction: 27 and the id, or 35, twice the chain id and the recovery id.
There is none where the sum does not fit into 64 bits. -/
def v (sig : CanonicalSignature) : (chainId : Option UInt64) → Option UInt64
  | none => some (UInt64.ofNat (27 + sig.recoveryId.toNat))
  | some chainId =>
    let value := 35 + 2 * chainId.toNat + sig.recoveryId.toNat
    if value < UInt64.size then some (UInt64.ofNat value) else none

/-- The address of the key that made the signature over a digest. -/
def recoverAddress (sig : CanonicalSignature) (digest : Bytes) : Except Error String :=
  match Pair.ofNat? sig.r.toNat sig.s.toNat with
  | none => .error (.malformedSignature "signature error")
  | some pair =>
    match RecoveryId.ofByte? sig.recoveryId with
    | none => .error (.malformedSignature s!"recovery id {sig.recoveryId.toNat}")
    | some id =>
      match recover? digest pair id with
      | none => .error (.recoveryFailed "a recoverable key")
      | some key => .ok (address key)

/-- The candidate recovery ids, in the order in which they are tried. The two that stand for a
reduced abscissa are left out: no honest nonce has one in practice. -/
def candidates : List RecoveryId := [0, 1]

/-- A low pair with a recovery id, in fixed width. -/
def ofPair (pair : Pair) (id : RecoveryId) : CanonicalSignature where
  r := .ofNat pair.r
  s := .ofNat pair.s
  recoveryId := UInt8.ofNat id.val

/-- The recovery id gives a key whose address is the expected one. -/
def signedBy (digest : Bytes) (pair : Pair) (expected : String) (id : RecoveryId) : Bool :=
  match recover? digest pair id with
  | none => false
  | some key => sameButCase (address key) expected

/-- Reads an encoded pair, takes its low form and finds the recovery id that gives the expected
address. -/
def ofDer (der digest : Bytes) (expected : String) : Except Error CanonicalSignature :=
  if digest.length ≠ hashLength then
    .error (.malformedSignature
      s!"message hash must be {hashLength} bytes, got {digest.length}")
  else
    match Der.read? der with
    | none => .error (.malformedSignature "signature error")
    | some pair =>
      match candidates.find? (signedBy digest pair.lowS expected) with
      | none => .error (.recoveryFailed expected)
      | some id => .ok (ofPair pair.lowS id)

/-! ## Wire form -/

open Json in
/-- The value that a signature is written as: the numbers as arrays of bytes. -/
def toValue (sig : CanonicalSignature) : Value :=
  .object
    [("r", .array (sig.r.val.map fun x => .nat x.toNat)),
      ("s", .array (sig.s.val.map fun x => .nat x.toNat)),
      ("recovery_id", .nat sig.recoveryId.toNat)]

open Json in
/-- A byte. -/
def byte? (t : Tree) : Option UInt8 :=
  (t.natBelow? 256).map UInt8.ofNat

open Json in
/-- A word of 32 bytes. -/
def word? (t : Tree) : Option Bytes32 :=
  (t.array? byte?).bind Bytes32.ofBytes?

open Json in
/-- The fields of a signature. -/
def fields : List Field :=
  [⟨"r", fun t => (word? t).isSome, false⟩, ⟨"s", fun t => (word? t).isSome, false⟩,
    ⟨"recovery_id", fun t => (byte? t).isSome, false⟩]

open Json in
/-- Reads a signature. Neither the numbers nor the recovery id are checked for their range. -/
def ofTree (t : Tree) : Except Fault CanonicalSignature := do
  let found ← t.record fields
  match found.get? "r" word?, found.get? "s" word?, found.get? "recovery_id" byte? with
  | some r, some s, some recoveryId => return ⟨r, s, recoveryId⟩
  | _, _, _ => throw .mismatch

end CanonicalSignature

end Custody
