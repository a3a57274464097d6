import Custody.Proofs.Curve.Group
/-!
# Points from an abscissa and a parity

A point on the curve is found from its abscissa and the parity of its ordinate
(`decompress_of_onCurve`): as `p` is 3 modulo 4, a power of a square is a root of it
(`sqrt_mul_self`), and of two opposite ordinates one is odd.
-/

namespace Custody.Secp256k1

/-- The power by a quarter of `p + 1` is a square root of a square. -/
theorem sqrt_mul_self (y : ZMod p) :
    (y * y) ^ ((p + 1) / 4) * (y * y) ^ ((p + 1) / 4) = y * y := by
  have hexp : (p + 1) / 4 + (p + 1) / 4 + ((p + 1) / 4 + (p + 1) / 4) = p + 1 := by
    decide
  rw [mul_pow, ← pow_add, ← pow_add, hexp, pow_succ, ZMod.pow_card]

/-- Of two numbers with an odd sum one is odd. -/
theorem parity_ne_of_add_eq {m a b : Nat} (hm : m % 2 = 1) (h : a + b = m) :
    ¬ (a % 2 == 1) = (b % 2 == 1) := by
  rw [Bool.eq_iff_iff, beq_iff_eq, beq_iff_eq]
  omega

/-- **A point on the curve is found from its abscissa and the parity of its ordinate.** -/
theorem decompress_of_onCurve {x y : Nat} (h : (Point.affine x y).OnCurve) :
    decompress x (y % 2 == 1) = some (.affine x y) := by
  obtain ⟨hx, hy, heq⟩ := h
  have hodd : p % 2 = 1 := by decide
  set root := Modular.pow (cubic x) ((p + 1) / 4) p with hroot
  have hlt : root < p := Modular.pow_lt p_pos _ _
  have hsq : (root : ZMod p) * root = y * y := by
    have hcubic : (cubic x : ZMod p) = y * y := by
      rw [cast_cubic, mul_self_mod_eq_cubic_iff.1 heq]
    rw [hroot, Modular.cast_pow, hcubic, sqrt_mul_self]
  have hmod : root * root % p = cubic x := by
    rw [mul_self_mod_eq_cubic_iff, hsq, mul_self_mod_eq_cubic_iff.1 heq]
  rw [decompress, if_pos hx]
  dsimp only
  rw [← hroot, if_pos hmod]
  rcases mul_self_eq_mul_self_iff.1 hsq with hsame | hopp
  · rw [eq_val hlt hsame, ZMod.val_cast_of_lt hy, if_pos rfl]
  · have hdvd : p ∣ root + y := by
      rw [← ZMod.natCast_eq_zero_iff, Nat.cast_add, hopp, neg_add_cancel]
    rcases Nat.eq_zero_or_pos (root + y) with hzero | hpos
    · obtain ⟨hr, rfl⟩ := Nat.add_eq_zero_iff.1 hzero
      rw [hr, if_pos rfl]
    · have hsum : root + y = p := Nat.eq_of_dvd_of_lt_two_mul hpos.ne' hdvd (by omega)
      rw [if_neg (parity_ne_of_add_eq hodd hsum), show (p - root) % p = y by
        rw [← hsum, Nat.add_sub_cancel_left, hsum, Nat.mod_eq_of_lt hy]]

end Custody.Secp256k1
