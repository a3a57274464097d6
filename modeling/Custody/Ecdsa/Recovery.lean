import Custody.Ecdsa.Pair
/-!
# Recovering the signer

A signature and the digest it signs leave few candidates for the signer's key: one for each point
whose abscissa is `r` modulo the group order. A recovery id tells them apart (`RecoveryId`), and
`recover?` computes the candidate and accepts it when the signature verifies under it. Verification
accepts low signatures only.
-/

namespace Custody.Ecdsa

open Secp256k1 (Point n)

/-- Which point was the nonce: the parity of its ordinate in the last bit, and in the bit above
whether its abscissa was reduced modulo the group order. -/
abbrev RecoveryId := Fin 4

namespace RecoveryId

/-- The ordinate of the nonce point is odd. -/
def isOdd (id : RecoveryId) : Bool :=
  id.val % 2 == 1

/-- The abscissa of the nonce point is `r` plus the group order. -/
def isReduced (id : RecoveryId) : Bool :=
  2 ≤ id.val

/-- The recovery id that a byte writes. -/
def ofByte? (byte : UInt8) : Option RecoveryId :=
  if h : byte.toNat < 4 then some ⟨byte.toNat, h⟩ else none

end RecoveryId

/-- The number that a digest stands for: at most its first 32 bytes count, and it must have half as
many. -/
def digestNumber? (digest : Bytes) : Option Nat :=
  if digest.length < 16 then none else some (Bytes.toNat (digest.take 32) % n)

/-- The nonce point that a recovery id selects. -/
def noncePoint? (pair : Pair) (id : RecoveryId) : Option Point :=
  Secp256k1.decompress (if id.isReduced then pair.r + n else pair.r) id.isOdd

/-- The key under which a pair with the given nonce point signs the number `z`:
`r⁻¹ • (s • nonce - z • G)`. -/
def keyOfNonce (z : Nat) (pair : Pair) (nonce : Point) : Point :=
  let w := Modular.inverse pair.r n
  Point.add (Point.mul (Modular.sub 0 (z * w) n) Secp256k1.generator)
    (Point.mul (pair.s * w % n) nonce)

/-- The point that verification arrives at: `s⁻¹ • (z • G + r • key)`. -/
def verificationPoint (z : Nat) (pair : Pair) (key : Point) : Point :=
  let w := Modular.inverse pair.s n
  Point.add (Point.mul (z * w % n) Secp256k1.generator) (Point.mul (pair.r * w % n) key)

/-- The point is not at infinity and its abscissa is a number modulo the group order. -/
def hasAbscissa (r : Nat) : Point → Bool
  | .infinity => false
  | .affine x _ => x % n == r

/-- The pair is a low signature of the number `z` under a key. -/
def Verifies (z : Nat) (pair : Pair) (key : Point) : Prop :=
  pair.IsLow ∧ hasAbscissa pair.r (verificationPoint z pair key) = true

instance (z : Nat) (pair : Pair) (key : Point) : Decidable (Verifies z pair key) :=
  inferInstanceAs
    (Decidable (pair.IsLow ∧ hasAbscissa pair.r (verificationPoint z pair key) = true))

/-- The signer's key, if the recovery id gives one under which the signature verifies. -/
def recover? (digest : Bytes) (pair : Pair) (id : RecoveryId) : Option Point := do
  let z ← digestNumber? digest
  let nonce ← noncePoint? pair id
  let key := keyOfNonce z pair nonce
  if key ≠ .infinity ∧ Verifies z pair key then some key else none

end Custody.Ecdsa
