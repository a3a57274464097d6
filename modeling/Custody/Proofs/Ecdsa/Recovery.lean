import Custody.Ecdsa.Recovery
import Custody.Proofs.Curve.Decompress
import Custody.Proofs.Curve.Generator
/-!
# Recovery finds the signer

A pair that a secret made with a nonce (`Pair.IsSignature`) satisfies the signing equation
`s k = z + r d` modulo the group order (`Pair.isSignature_iff`). With the nonce point in hand the
equation gives the key back (`keyOfNonce_eq`), and the pair verifies under it
(`verificationPoint_eq`). The opposite of a pair is a signature by the opposite nonce
(`Pair.IsSignature.opposite`), whose point has the other parity, so that recovery finds the signer
of the low form of either (`recover?_eq`).
-/

namespace Custody.Ecdsa

open Secp256k1

/-! ## Signing -/

namespace Pair

/-- The signature of the number `z` that the secret `d` makes with the nonce `k`: `r` is the
abscissa of the nonce point, and `s` is `k⁻¹ (z + r d)` modulo the group order. -/
structure IsSignature (d k z : Nat) (pair : Pair) : Prop where
  r_eq : ∃ y, Point.mul k generator = .affine pair.r y
  s_eq : pair.s = ((k : ZMod n)⁻¹ * (z + pair.r * d)).val

variable {d k z : Nat} {pair : Pair}

theorem r_ne_zero (pair : Pair) : (pair.r : ZMod n) ≠ 0 := by
  rw [Ne, ZMod.natCast_eq_zero_iff]
  exact Nat.not_dvd_of_pos_of_lt pair.r_pos pair.r_lt

theorem s_ne_zero (pair : Pair) : (pair.s : ZMod n) ≠ 0 := by
  rw [Ne, ZMod.natCast_eq_zero_iff]
  exact Nat.not_dvd_of_pos_of_lt pair.s_pos pair.s_lt

/-- **The signing equation.** -/
theorem isSignature_iff :
    pair.IsSignature d k z ↔
      (∃ y, Point.mul k generator = .affine pair.r y) ∧
        (pair.s : ZMod n) * k = z + pair.r * d := by
  constructor
  · rintro ⟨⟨y, hy⟩, hs⟩
    refine ⟨⟨y, hy⟩, ?_⟩
    rw [hs, ZMod.natCast_zmod_val, mul_comm, mul_inv_cancel_left₀ (ne_zero_of_mul_generator hy)]
  · rintro ⟨⟨y, hy⟩, hs⟩
    refine ⟨⟨y, hy⟩, ?_⟩
    rw [← hs, mul_comm, mul_assoc, mul_inv_cancel₀ (ne_zero_of_mul_generator hy), mul_one,
      ZMod.val_cast_of_lt pair.s_lt]

/-- The opposite of a pair is a signature by the opposite nonce. -/
theorem IsSignature.opposite (h : pair.IsSignature d k z) :
    pair.opposite.IsSignature d ((n - 1) * k) z := by
  obtain ⟨⟨y, hy⟩, hs⟩ := isSignature_iff.1 h
  have hneg : (((n - 1) * k : Nat) : ZMod n) = -k := by
    rw [Nat.cast_mul, Nat.cast_sub prime_n.one_le, ZMod.natCast_self, Nat.cast_one, zero_sub,
      neg_one_mul]
  have hopp : (pair.opposite.s : ZMod n) = -pair.s := by
    rw [Pair.opposite, Nat.cast_sub pair.s_lt.le, ZMod.natCast_self, zero_sub]
  refine isSignature_iff.2 ⟨⟨_, mul_generator_of_neg hneg hy⟩, ?_⟩
  rw [hneg, hopp, neg_mul_neg]
  exact hs

/-- The low form of a signature is one, by the same nonce or the opposite one. -/
theorem IsSignature.lowS (h : pair.IsSignature d k z) : ∃ k, pair.lowS.IsSignature d k z := by
  unfold Pair.lowS
  split
  · exact ⟨k, h⟩
  · exact ⟨_, h.opposite⟩

end Pair

/-! ## Recovering -/

theorem cast_digestNumber {digest : Bytes} (hl : digest.length = 32) :
    ∃ z, digestNumber? digest = some z ∧ (z : ZMod n) = Bytes.toNat digest := by
  refine ⟨Bytes.toNat (digest.take 32) % n, ?_, ?_⟩
  · rw [digestNumber?, if_neg (by omega)]
  · rw [ZMod.natCast_mod, List.take_of_length_le hl.le]

variable {d k z : Nat} {pair : Pair}

/-- From the nonce point the signing equation gives the key. -/
theorem keyOfNonce_eq (h : (pair.s : ZMod n) * k = z + pair.r * d) :
    keyOfNonce z pair (Point.mul k generator) = Point.mul d generator := by
  have hn : 0 < n := prime_n.pos
  rw [keyOfNonce, mul_mul_generator, add_mul_generator, mul_generator_eq_iff]
  rw [Nat.cast_add, Modular.cast_sub hn, Nat.cast_mul, Nat.cast_mul, ZMod.natCast_mod, Nat.cast_mul,
    Modular.cast_inverse pair.r_ne_zero, Nat.cast_zero, zero_sub]
  calc -((z : ZMod n) * (pair.r : ZMod n)⁻¹) + pair.s * (pair.r : ZMod n)⁻¹ * k
      = (pair.s * k - z) * (pair.r : ZMod n)⁻¹ := by ring
    _ = pair.r * d * (pair.r : ZMod n)⁻¹ := by rw [h, add_sub_cancel_left]
    _ = d := by rw [mul_comm, inv_mul_cancel_left₀ pair.r_ne_zero]

/-- Under that key, verification comes back to the nonce point. -/
theorem verificationPoint_eq (h : (pair.s : ZMod n) * k = z + pair.r * d) :
    verificationPoint z pair (Point.mul d generator) = Point.mul k generator := by
  rw [verificationPoint, mul_mul_generator, add_mul_generator, mul_generator_eq_iff]
  rw [Nat.cast_add, ZMod.natCast_mod, Nat.cast_mul, Nat.cast_mul, ZMod.natCast_mod, Nat.cast_mul,
    Modular.cast_inverse pair.s_ne_zero]
  calc (z : ZMod n) * (pair.s : ZMod n)⁻¹ + pair.r * (pair.s : ZMod n)⁻¹ * d
      = (pair.s : ZMod n)⁻¹ * (z + pair.r * d) := by ring
    _ = k := by rw [← h, inv_mul_cancel_left₀ pair.s_ne_zero]

/-- The recovery id of a nonce point with this ordinate and an abscissa below the group order. -/
def RecoveryId.ofOrdinate (y : Nat) : RecoveryId :=
  ⟨y % 2, by omega⟩

theorem RecoveryId.isOdd_ofOrdinate (y : Nat) : (RecoveryId.ofOrdinate y).isOdd = (y % 2 == 1) := by
  rw [isOdd, ofOrdinate, Nat.mod_mod]

theorem RecoveryId.isReduced_ofOrdinate (y : Nat) :
    (RecoveryId.ofOrdinate y).isReduced = false := by
  have hlt : y % 2 < 2 := Nat.mod_lt y (by decide)
  exact decide_eq_false (Nat.not_le.2 hlt)

/-- **Recovery finds the signer of a low signature**, by the parity of the nonce point. -/
theorem recover?_eq {digest : Bytes} (hl : digest.length = 32) (hlow : pair.IsLow)
    (hd : (d : ZMod n) ≠ 0) (h : pair.IsSignature d k (Bytes.toNat digest)) :
    ∃ y, recover? digest pair (.ofOrdinate y) = some (Point.mul d generator) := by
  obtain ⟨⟨y, hy⟩, hs⟩ := Pair.isSignature_iff.1 h
  obtain ⟨z, hz, hcast⟩ := cast_digestNumber hl
  rw [← hcast] at hs
  have hnonce : noncePoint? pair (.ofOrdinate y) = some (Point.mul k generator) := by
    rw [noncePoint?, RecoveryId.isReduced_ofOrdinate, RecoveryId.isOdd_ofOrdinate, hy]
    exact decompress_of_onCurve (hy ▸ onCurve_mul_generator k)
  have hkey : Point.mul d generator ≠ .infinity := mt mul_generator_eq_infinity_iff.1 hd
  have hverifies : Verifies z pair (Point.mul d generator) := by
    refine ⟨hlow, ?_⟩
    rw [verificationPoint_eq hs, hy, hasAbscissa, Nat.mod_eq_of_lt pair.r_lt, beq_self_eq_true]
  refine ⟨y, ?_⟩
  simp only [recover?, hz, hnonce, Option.bind_eq_bind, Option.bind_some, keyOfNonce_eq hs]
  rw [if_pos ⟨hkey, hverifies⟩]

end Custody.Ecdsa
