import Custody.Curve.Modular
import Mathlib.Data.ZMod.Basic
import Mathlib.Algebra.Field.ZMod
import Mathlib.Tactic.LinearCombination
/-!
# Modular arithmetic in the ring of residues

The operations on numbers are those of `ZMod m` on representatives: powers (`Modular.cast_pow`),
differences (`Modular.cast_sub`) and, for a prime modulus, inverses (`Modular.cast_inverse`).
-/

namespace Custody.Modular

/-! ## Powers -/

theorem pow_zero_right (b m : Nat) : pow b 0 m = 1 % m := by
  rw [pow, if_pos rfl]

/-- Squaring and multiplying gives the power modulo `m`. -/
theorem pow_eq (b e m : Nat) : pow b e m = b ^ e % m := by
  induction e using Nat.strongRecOn generalizing b with
  | ind e ih =>
    rcases Nat.eq_zero_or_pos e with rfl | he
    · rw [pow_zero_right, Nat.pow_zero]
    · have half : pow (b * b % m) (e / 2) m = b ^ (2 * (e / 2)) % m := by
        rw [ih (e / 2) (by omega), ← Nat.pow_mod, ← Nat.pow_two, ← Nat.pow_mul]
      rw [pow, if_neg he.ne']
      dsimp only
      rw [half]
      split
      · next hodd =>
        rw [Nat.mul_mod_mod, ← Nat.pow_succ']
        congr 2
        omega
      · next heven =>
        congr 2
        omega

/-- Reducing modulo a multiple of `l` changes nothing modulo `l`. -/
theorem cast_mod_of_dvd {l m : Nat} (h : l ∣ m) (a : Nat) : ((a % m : Nat) : ZMod l) = a := by
  rw [ZMod.natCast_eq_natCast_iff', Nat.mod_mod_of_dvd a h]

theorem cast_pow_of_dvd {l m : Nat} (h : l ∣ m) (b e : Nat) :
    (pow b e m : ZMod l) = (b : ZMod l) ^ e := by
  rw [pow_eq, cast_mod_of_dvd h, Nat.cast_pow]

theorem cast_pow (b e m : Nat) : (pow b e m : ZMod m) = (b : ZMod m) ^ e :=
  cast_pow_of_dvd dvd_rfl b e

theorem pow_lt {m : Nat} (hm : 0 < m) (b e : Nat) : pow b e m < m := by
  rw [pow_eq]
  exact Nat.mod_lt _ hm

/-! ## Differences -/

theorem cast_sub_of_dvd {l m : Nat} (h : l ∣ m) (hm : 0 < m) (a b : Nat) :
    (sub a b m : ZMod l) = (a : ZMod l) - (b : ZMod l) := by
  have hle : b % m ≤ m := (Nat.mod_lt b hm).le
  have hzero : (m : ZMod l) = 0 := (ZMod.natCast_eq_zero_iff m l).2 h
  rw [sub, cast_mod_of_dvd h, Nat.cast_add, Nat.cast_sub hle, hzero, cast_mod_of_dvd h, zero_sub,
    ← sub_eq_add_neg]

theorem cast_sub {m : Nat} (hm : 0 < m) (a b : Nat) :
    (sub a b m : ZMod m) = (a : ZMod m) - (b : ZMod m) :=
  cast_sub_of_dvd dvd_rfl hm a b

theorem sub_lt {m : Nat} (hm : 0 < m) (a b : Nat) : sub a b m < m :=
  Nat.mod_lt _ hm

/-! ## Inverses -/

/-- Euclid's algorithm keeps for each remainder a factor that produces it from `a` modulo `m`, so
that its answer produces the greatest common divisor. -/
theorem cast_bezout_mul {m : Nat} (a : ZMod m) (r₀ r₁ : Nat) (s₀ s₁ : Int)
    (h₀ : (s₀ : ZMod m) * a = r₀) (h₁ : (s₁ : ZMod m) * a = r₁) :
    (bezout r₀ r₁ s₀ s₁ : ZMod m) * a = (Nat.gcd r₁ r₀ : Nat) := by
  induction r₁ using Nat.strongRecOn generalizing r₀ s₀ s₁ with
  | ind r₁ ih =>
    rw [bezout]
    split
    · next hz => rw [hz, Nat.gcd_zero_left, h₀]
    · next hz =>
      have hlt : r₀ % r₁ < r₁ := Nat.mod_lt r₀ (Nat.pos_of_ne_zero hz)
      have hnext : ((s₀ - (r₀ / r₁ : Nat) * s₁ : Int) : ZMod m) * a = (r₀ % r₁ : Nat) := by
        have hdiv : (r₀ : ZMod m) = r₁ * (r₀ / r₁ : Nat) + (r₀ % r₁ : Nat) := by
          rw [← Nat.cast_mul, ← Nat.cast_add, Nat.div_add_mod]
        rw [Int.cast_sub, Int.cast_mul, Int.cast_natCast]
        linear_combination h₀ - ((r₀ / r₁ : Nat) : ZMod m) * h₁ + hdiv
      rw [ih _ hlt _ _ _ h₁ hnext, ← Nat.gcd_rec]

theorem cast_inverse_mul {m : Nat} (hm : 0 < m) (a : Nat) :
    (inverse a m : ZMod m) * a = (Nat.gcd a m : Nat) := by
  have hb := cast_bezout_mul (a : ZMod m) (a % m) m 1 0 (by simp) (by simp)
  have hnonneg : 0 ≤ bezout (a % m) m 1 0 % m := Int.emod_nonneg _ (by omega)
  have hcast : (inverse a m : ZMod m) = (bezout (a % m) m 1 0 : ZMod m) := by
    rw [inverse, ← Int.cast_natCast (Int.toNat _), Int.toNat_of_nonneg hnonneg, ZMod.intCast_mod]
  rw [hcast, hb, Nat.gcd_comm, ← Nat.gcd_rec, Nat.gcd_comm]

/-- **The inverse is that of the field.** -/
theorem cast_inverse {m : Nat} [Fact m.Prime] {a : Nat} (ha : (a : ZMod m) ≠ 0) :
    (inverse a m : ZMod m) = (a : ZMod m)⁻¹ := by
  have hprime : m.Prime := Fact.out
  have hgcd : Nat.gcd a m = 1 := by
    refine (hprime.coprime_iff_not_dvd.2 ?_).symm
    rwa [Ne, ZMod.natCast_eq_zero_iff] at ha
  refine eq_inv_of_mul_eq_one_left ?_
  rw [cast_inverse_mul hprime.pos, hgcd, Nat.cast_one]

end Custody.Modular
