import Custody.Proofs.Curve.Prime
import Mathlib.AlgebraicGeometry.EllipticCurve.Affine.Point
/-!
# The points of the curve are a group

The curve is an elliptic curve over the integers modulo `p` (`Secp256k1.curve`), whose points form a
commutative group. Writing the coordinates of a point as numbers below `p` (`Point.ofCurve`) takes
the group to the points that the curve's arithmetic computes with:

* `Point.ofCurve_injective`: different points have different coordinates.
* `Point.onCurve_iff`: the points on the curve are those written so.
* `Point.ofCurve_neg`: opposite points differ in their ordinate.
* `Point.ofCurve_add`, `Point.ofCurve_nsmul`: the chord and tangent formulas add, and doubling and
  adding gives the multiples.
-/

namespace Custody.Secp256k1

/-! ## The curve over the field -/

/-- The curve `y² = x³ + 7` over the integers modulo `p`. -/
def curve : WeierstrassCurve.Affine (ZMod p) where
  a₁ := 0
  a₂ := 0
  a₃ := 0
  a₄ := 0
  a₆ := 7

/-- A number that `p` does not divide is not zero in the field. -/
theorem natCast_ne_zero {k : Nat} (h : ¬ p ∣ k) : (k : ZMod p) ≠ 0 :=
  mt (ZMod.natCast_eq_zero_iff k p).1 h

theorem cast_two_ne_zero : (2 : ZMod p) ≠ 0 := by
  have h := natCast_ne_zero (k := 2) (by decide)
  rwa [Nat.cast_ofNat] at h

/-- The discriminant is not zero, so that the curve has no singular point. -/
theorem curve_Δ_ne_zero : curve.Δ ≠ 0 := by
  have hΔ : curve.Δ = -((21168 : Nat) : ZMod p) := by
    simp only [curve, WeierstrassCurve.Δ, WeierstrassCurve.b₂, WeierstrassCurve.b₄,
      WeierstrassCurve.b₆, WeierstrassCurve.b₈, Nat.cast_ofNat]
    ring
  rw [hΔ, neg_ne_zero]
  exact natCast_ne_zero (by decide)

theorem negY_eq (x y : ZMod p) : curve.negY x y = -y := by
  simp [curve, WeierstrassCurve.Affine.negY]

theorem equation_iff {x y : ZMod p} : curve.Equation x y ↔ y * y = x * x * x + 7 := by
  rw [WeierstrassCurve.Affine.equation_iff]
  simp only [curve]
  ring_nf

theorem nonsingular_iff {x y : ZMod p} : curve.Nonsingular x y ↔ y * y = x * x * x + 7 := by
  rw [← WeierstrassCurve.Affine.equation_iff_nonsingular_of_Δ_ne_zero curve_Δ_ne_zero, equation_iff]

/-! ## Coordinates -/

theorem p_pos : 0 < p := by
  decide

theorem cast_cubic (x : Nat) : (cubic x : ZMod p) = x * x * x + 7 := by
  simp [cubic, ZMod.natCast_mod]

theorem cubic_lt (x : Nat) : cubic x < p :=
  Nat.mod_lt _ p_pos

/-- A number below `p` is determined by its residue. -/
theorem eq_val {k : Nat} {x : ZMod p} (hk : k < p) (h : (k : ZMod p) = x) : k = x.val := by
  rw [← h, ZMod.val_cast_of_lt hk]

theorem mul_self_mod_eq_cubic_iff {x y : Nat} :
    y * y % p = cubic x ↔ (y : ZMod p) * y = x * x * x + 7 := by
  rw [← cast_cubic, ← Nat.cast_mul, ZMod.natCast_eq_natCast_iff', Nat.mod_eq_of_lt (cubic_lt x)]

namespace Point

/-- The coordinates of a point as numbers below `p`. -/
def ofCurve : curve.Point → Point
  | .zero => .infinity
  | .some x y _ => .affine x.val y.val

theorem ofCurve_zero : ofCurve 0 = .infinity :=
  rfl

theorem ofCurve_some {x y : ZMod p} (h : curve.Nonsingular x y) :
    ofCurve (.some x y h) = .affine x.val y.val :=
  rfl

theorem ofCurve_injective : Function.Injective ofCurve := by
  intro P Q h
  cases P with
  | zero =>
    cases Q with
    | zero => rfl
    | some x y hQ => cases h
  | some x₁ y₁ hP =>
    cases Q with
    | zero => cases h
    | some x₂ y₂ hQ =>
      obtain ⟨hx, hy⟩ := Point.affine.inj h
      obtain rfl := ZMod.val_injective p hx
      obtain rfl := ZMod.val_injective p hy
      rfl

/-- **The points on the curve are those of the group.** -/
theorem onCurve_iff {a : Point} : a.OnCurve ↔ ∃ P, ofCurve P = a := by
  constructor
  · intro h
    cases a with
    | infinity => exact ⟨0, rfl⟩
    | affine x y =>
      obtain ⟨hx, hy, heq⟩ := h
      refine ⟨.some (x : ZMod p) (y : ZMod p)
        (nonsingular_iff.2 (mul_self_mod_eq_cubic_iff.1 heq)), ?_⟩
      rw [ofCurve_some, ZMod.val_cast_of_lt hx, ZMod.val_cast_of_lt hy]
  · rintro ⟨P, rfl⟩
    cases P with
    | zero => trivial
    | some x y h =>
      refine ⟨x.val_lt, y.val_lt, mul_self_mod_eq_cubic_iff.2 ?_⟩
      rw [ZMod.natCast_zmod_val, ZMod.natCast_zmod_val]
      exact nonsingular_iff.1 h

/-! ## The operation -/

/-- The third point of a line, reflected, is given by the formulas of the group law. -/
theorem third_eq (l : Nat) (x₁ y₁ x₂ : ZMod p) :
    third l x₁.val y₁.val x₂.val =
      .affine (curve.addX x₁ x₂ l).val (curve.addY x₁ x₂ y₁ l).val := by
  have hx : Modular.sub (l * l % p) ((x₁.val + x₂.val) % p) p = (curve.addX x₁ x₂ l).val := by
    refine eq_val (Modular.sub_lt p_pos _ _) ?_
    rw [Modular.cast_sub p_pos, ZMod.natCast_mod, ZMod.natCast_mod, Nat.cast_mul, Nat.cast_add,
      ZMod.natCast_zmod_val, ZMod.natCast_zmod_val]
    simp only [WeierstrassCurve.Affine.addX, curve]
    ring
  rw [third, hx]
  congr 1
  refine eq_val (Modular.sub_lt p_pos _ _) ?_
  rw [Modular.cast_sub p_pos, ZMod.natCast_mod, Nat.cast_mul, Modular.cast_sub p_pos,
    ZMod.natCast_zmod_val, ZMod.natCast_zmod_val, ZMod.natCast_zmod_val,
    WeierstrassCurve.Affine.addY, negY_eq, WeierstrassCurve.Affine.negAddY]
  ring

theorem tangent_slope {x y : ZMod p} (hy : y ≠ -y) :
    ((3 * (x.val * x.val % p) * Modular.inverse (2 * y.val) p % p : Nat) : ZMod p) =
      curve.slope x x y y := by
  have h2y : ((2 * y.val : Nat) : ZMod p) = 2 * y := by
    rw [Nat.cast_mul, ZMod.natCast_zmod_val, Nat.cast_ofNat]
  have hne : ((2 * y.val : Nat) : ZMod p) ≠ 0 := by
    rw [h2y, two_mul]
    exact mt eq_neg_of_add_eq_zero_left hy
  rw [WeierstrassCurve.Affine.slope_of_Y_ne rfl (by rwa [negY_eq]), negY_eq, ZMod.natCast_mod,
    Nat.cast_mul, Nat.cast_mul, ZMod.natCast_mod, Nat.cast_mul, Modular.cast_inverse hne, h2y,
    ZMod.natCast_zmod_val]
  simp only [curve, div_eq_mul_inv]
  ring_nf

theorem chord_slope {x₁ x₂ : ZMod p} (y₁ y₂ : ZMod p) (hx : x₁ ≠ x₂) :
    ((Modular.sub y₂.val y₁.val p * Modular.inverse (Modular.sub x₂.val x₁.val p) p % p : Nat) :
        ZMod p) = curve.slope x₁ x₂ y₁ y₂ := by
  have hsub (a b : ZMod p) : (Modular.sub a.val b.val p : ZMod p) = a - b := by
    rw [Modular.cast_sub p_pos, ZMod.natCast_zmod_val, ZMod.natCast_zmod_val]
  have hne : (Modular.sub x₂.val x₁.val p : ZMod p) ≠ 0 := by
    rw [hsub]
    exact sub_ne_zero.2 hx.symm
  rw [WeierstrassCurve.Affine.slope_of_X_ne hx, ZMod.natCast_mod, Nat.cast_mul, hsub,
    Modular.cast_inverse hne, hsub, ← neg_sub y₂ y₁, ← neg_sub x₂ x₁, neg_div_neg_eq,
    div_eq_mul_inv]

/-- **The chord and tangent formulas add.** -/
theorem ofCurve_add (P Q : curve.Point) : ofCurve (P + Q) = (ofCurve P).add (ofCurve Q) := by
  cases P with
  | zero => rfl
  | some x₁ y₁ h₁ =>
    cases Q with
    | zero => rfl
    | some x₂ y₂ h₂ =>
      rw [ofCurve_some, ofCurve_some, add]
      by_cases hx : x₁ = x₂
      · subst hx
        rw [if_pos rfl]
        by_cases hy : y₁ = -y₂
        · -- a point and its opposite
          have hvert : ¬ (y₁.val = y₂.val ∧ y₁.val ≠ 0) := by
            rintro ⟨heq, hne⟩
            obtain rfl := ZMod.val_injective p heq
            refine hne ((ZMod.val_eq_zero _).2 ?_)
            exact (mul_eq_zero.1 ((two_mul y₁).trans (add_eq_zero_iff_eq_neg.2 hy))).resolve_left
              cast_two_ne_zero
          rw [if_neg hvert, WeierstrassCurve.Affine.Point.add_of_Y_eq rfl (by rwa [negY_eq]),
            ofCurve_zero]
        · -- a doubled point
          have hyn : y₁ ≠ curve.negY x₁ y₂ := by rwa [negY_eq]
          obtain rfl : y₁ = y₂ := WeierstrassCurve.Affine.Y_eq_of_Y_ne h₁.1 h₂.1 rfl hyn
          have hne : y₁.val ≠ 0 := by
            intro hz
            rw [ZMod.val_eq_zero] at hz
            exact hy (by rw [hz, neg_zero])
          rw [if_pos ⟨rfl, hne⟩, third_eq, tangent_slope hy,
            WeierstrassCurve.Affine.Point.add_of_Y_ne hyn, ofCurve_some]
      · rw [if_neg (mt (fun h => ZMod.val_injective p h) hx), third_eq, chord_slope _ _ hx,
          WeierstrassCurve.Affine.Point.add_of_X_ne hx, ofCurve_some]

/-- The opposite of a point has the same abscissa and the opposite ordinate. -/
theorem ofCurve_neg {P : curve.Point} {x y : Nat} (h : ofCurve P = .affine x y) :
    ofCurve (-P) = .affine x ((p - y) % p) := by
  cases P with
  | zero => cases h
  | some x₁ y₁ hP =>
    obtain ⟨rfl, rfl⟩ := Point.affine.inj h
    have hy : (p - y₁.val) % p = (-y₁).val := by
      refine eq_val (Nat.mod_lt _ p_pos) ?_
      rw [ZMod.natCast_mod, Nat.cast_sub y₁.val_lt.le, ZMod.natCast_self, ZMod.natCast_zmod_val,
        zero_sub]
    rw [WeierstrassCurve.Affine.Point.neg_some, ofCurve_some, negY_eq, hy]

/-- **Doubling and adding gives the multiples.** -/
theorem ofCurve_nsmul (k : Nat) (P : curve.Point) : ofCurve (k • P) = mul k (ofCurve P) := by
  induction k using Nat.strongRecOn generalizing P with
  | ind k ih =>
    rw [mul]
    rcases Nat.eq_zero_or_pos k with rfl | hk
    · rw [if_pos rfl, zero_nsmul, ofCurve_zero]
    · have half : mul (k / 2) ((ofCurve P).add (ofCurve P)) = ofCurve ((2 * (k / 2)) • P) := by
        rw [← ofCurve_add, ← ih (k / 2) (by omega), ← two_nsmul, ← mul_nsmul]
      rw [if_neg hk.ne', half]
      split
      · next hodd =>
        rw [← ofCurve_add, ← succ_nsmul']
        congr 2
        omega
      · next heven =>
        congr 2
        omega

end Point

end Custody.Secp256k1
