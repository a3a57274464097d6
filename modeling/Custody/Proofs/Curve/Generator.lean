import Custody.Proofs.Curve.Group
import Mathlib.GroupTheory.OrderOfElement
/-!
# Multiples of the generator

The generator has order `n` (`addOrderOf_base`), so its multiples are told apart by their factors
modulo `n` (`mul_generator_eq_iff`), and add and multiply as these do (`add_mul_generator`,
`mul_mul_generator`). The lemmas after the first section speak of coordinates only.
-/

namespace Custody.Secp256k1

/-! ## The order -/

theorem onCurve_generator : generator.OnCurve := by
  decide +kernel

/-- The multiple by `n` is at infinity, by computing it. -/
theorem mul_n_generator : Point.mul n generator = .infinity := by
  decide +kernel

/-- The generator in the group. -/
noncomputable def base : curve.Point :=
  (Point.onCurve_iff.1 onCurve_generator).choose

theorem ofCurve_base : Point.ofCurve base = generator :=
  (Point.onCurve_iff.1 onCurve_generator).choose_spec

theorem ofCurve_nsmul_base (k : Nat) : Point.ofCurve (k • base) = Point.mul k generator := by
  rw [Point.ofCurve_nsmul, ofCurve_base]

/-- **The generator has prime order `n`.** -/
theorem addOrderOf_base : addOrderOf base = n := by
  refine addOrderOf_eq_prime ?_ ?_
  · apply Point.ofCurve_injective
    rw [ofCurve_nsmul_base, mul_n_generator, Point.ofCurve_zero]
  · intro h
    have hbase := ofCurve_base
    rw [h] at hbase
    cases hbase

/-! ## Factors modulo the order -/

/-- **Multiples are equal exactly when their factors are, modulo `n`.** -/
theorem mul_generator_eq_iff {a b : Nat} :
    Point.mul a generator = Point.mul b generator ↔ (a : ZMod n) = b := by
  rw [← ofCurve_nsmul_base, ← ofCurve_nsmul_base, Point.ofCurve_injective.eq_iff,
    nsmul_eq_nsmul_iff_modEq, addOrderOf_base, ZMod.natCast_eq_natCast_iff]

theorem mul_generator_eq_infinity_iff {a : Nat} :
    Point.mul a generator = .infinity ↔ (a : ZMod n) = 0 := by
  rw [← Point.ofCurve_zero, ← zero_nsmul base, ofCurve_nsmul_base, mul_generator_eq_iff,
    Nat.cast_zero]

/-- The factor of a multiple that has coordinates is not zero modulo `n`. -/
theorem ne_zero_of_mul_generator {k x y : Nat} (h : Point.mul k generator = .affine x y) :
    (k : ZMod n) ≠ 0 := by
  intro hk
  rw [mul_generator_eq_infinity_iff.2 hk] at h
  cases h

theorem onCurve_mul_generator (a : Nat) : (Point.mul a generator).OnCurve :=
  Point.onCurve_iff.2 ⟨_, ofCurve_nsmul_base a⟩

theorem add_mul_generator (a b : Nat) :
    (Point.mul a generator).add (Point.mul b generator) = Point.mul (a + b) generator := by
  rw [← ofCurve_nsmul_base, ← ofCurve_nsmul_base, ← Point.ofCurve_add, ← add_nsmul,
    ofCurve_nsmul_base]

theorem mul_mul_generator (a b : Nat) :
    Point.mul a (Point.mul b generator) = Point.mul (a * b) generator := by
  rw [← ofCurve_nsmul_base, ← Point.ofCurve_nsmul, ← mul_nsmul', ofCurve_nsmul_base]

/-- Multiples by opposite factors are opposite points. -/
theorem mul_generator_of_neg {a b x y : Nat} (hab : (b : ZMod n) = -a)
    (h : Point.mul a generator = .affine x y) :
    Point.mul b generator = .affine x ((p - y) % p) := by
  rw [← ofCurve_nsmul_base] at h
  have hsum : b • base + a • base = 0 := by
    apply Point.ofCurve_injective
    rw [← add_nsmul, ofCurve_nsmul_base, Point.ofCurve_zero, mul_generator_eq_infinity_iff,
      Nat.cast_add, hab, neg_add_cancel]
  rw [← ofCurve_nsmul_base, eq_neg_of_add_eq_zero_left hsum]
  exact Point.ofCurve_neg h

end Custody.Secp256k1
