import Custody.Curve.Secp256k1
import Custody.Proofs.Curve.Modular
import Mathlib.Data.List.Prime
import Mathlib.FieldTheory.Finite.Basic
import Mathlib.Tactic.NormNum.Prime
/-!
# The field order and the group order are prime

A number is prime once the prime factors known of its predecessor make up more than its square
root, and some base has an order that all of them divide (`Modular.Certifies`): the order of that
base modulo any prime factor is then too large for a proper one (`Modular.prime_of_certifies`). The
powers are those that the curve's own arithmetic computes.

* `Secp256k1.prime_p`: the integers modulo `p` are a field.
* `Secp256k1.prime_n`: so are those modulo the order of the generator.
-/

namespace Custody

/-! ## A test that the kernel can run -/

namespace Modular

/-- The product of the numbers `qs` divides `m - 1` and exceeds the square root of `m` less one; the
power of `a` by `m - 1` is one, and for each of the numbers `q` that by `(m - 1) / q` differs from
one modulo every prime factor of `m`. -/
def Certifies (a m : Nat) (qs : List Nat) : Prop :=
  1 < m ∧ qs.prod ∣ m - 1 ∧ m < (qs.prod + 1) ^ 2 ∧ pow a (m - 1) m = 1 ∧
    ∀ q ∈ qs, Nat.gcd (sub (pow a ((m - 1) / q) m) 1 m) m = 1

instance (a m : Nat) (qs : List Nat) : Decidable (Certifies a m qs) :=
  inferInstanceAs (Decidable (_ ∧ _))

variable {a m : Nat} {qs : List Nat}

/-- Modulo a prime factor of a certified number, a power of the base has order `qs.prod`. -/
theorem prod_dvd_sub_one (hqs : ∀ q ∈ qs, q.Prime) (h : Certifies a m qs) {l : Nat} (hl : l.Prime)
    (hlm : l ∣ m) : qs.prod ∣ l - 1 := by
  have : Fact l.Prime := ⟨hl⟩
  obtain ⟨hm, ⟨c, hc⟩, -, hone, hne⟩ := h
  have hm0 : 0 < m := by omega
  have hprod : 0 < qs.prod := List.prod_pos fun q hq => (hqs q hq).pos
  have hpow : ((a : ZMod l) ^ c) ^ qs.prod = 1 := by
    rw [← pow_mul, Nat.mul_comm, ← hc, ← cast_pow_of_dvd hlm, hone, Nat.cast_one]
  have hdiv (q : Nat) (hq : q.Prime) (hqd : q ∣ qs.prod) :
      ((a : ZMod l) ^ c) ^ (qs.prod / q) ≠ 1 := by
    have hmem : q ∈ qs :=
      mem_list_primes_of_dvd_prod hq.prime (fun r hr => (hqs r hr).prime) hqd
    have hexp : c * (qs.prod / q) = (m - 1) / q := by
      rw [hc, Nat.mul_comm qs.prod, Nat.mul_div_assoc _ hqd]
    rw [← pow_mul, hexp, ← cast_pow_of_dvd hlm]
    intro heq
    -- otherwise `l` divides both the difference to one and `m`
    have hsub : l ∣ sub (pow a ((m - 1) / q) m) 1 m := by
      rw [← ZMod.natCast_eq_zero_iff, cast_sub_of_dvd hlm hm0, heq, Nat.cast_one, sub_self]
    have hgcd := Nat.dvd_gcd hsub hlm
    rw [hne q hmem] at hgcd
    exact hl.one_lt.ne' (Nat.dvd_one.1 hgcd)
  have hne0 : (a : ZMod l) ^ c ≠ 0 := by
    intro hz
    rw [hz, zero_pow hprod.ne'] at hpow
    exact zero_ne_one hpow
  rw [← orderOf_eq_of_pow_and_pow_div_prime hprod hpow hdiv]
  exact ZMod.orderOf_dvd_card_sub_one hne0

/-- **A certified number is prime.** -/
theorem prime_of_certifies (a : Nat) {m : Nat} (qs : List Nat) (hqs : ∀ q ∈ qs, q.Prime)
    (h : Certifies a m qs) : m.Prime := by
  have hm : 1 < m := h.1
  have hmin : m.minFac.Prime := Nat.minFac_prime hm.ne'
  have hdvd := prod_dvd_sub_one hqs h hmin (Nat.minFac_dvd m)
  have hle : qs.prod + 1 ≤ m.minFac := by
    have := Nat.le_of_dvd (Nat.sub_pos_of_lt hmin.one_lt) hdvd
    have := hmin.one_lt
    omega
  by_contra hcomp
  have hsq : m.minFac ^ 2 ≤ m := Nat.minFac_sq_le_self (by omega) hcomp
  have hlt : m < (qs.prod + 1) ^ 2 := h.2.2.1
  exact absurd (Nat.pow_le_pow_left hle 2) (by omega)

end Modular

/-! ## The two orders -/

namespace Secp256k1

/-- **The order of the field is prime.** Each step certifies a prime factor of the predecessor of
the next. -/
theorem prime_p : p.Prime := by
  have h₁ : Nat.Prime 107590001 :=
    Modular.prime_of_certifies 2 [5, 5, 5, 5, 7, 29] (by norm_num) (by decide +kernel)
  have h₂ : Nat.Prime 255515944373312847190720520512484175977 :=
    Modular.prime_of_certifies 2 [107590001, 7240687, 96557]
      (by simp only [List.forall_mem_cons, h₁]; norm_num) (by decide +kernel)
  have h₃ : Nat.Prime 205115282021455665897114700593932402728804164701536103180137503955397371 :=
    Modular.prime_of_certifies 2 _ (List.forall_mem_singleton.2 h₂) (by decide +kernel)
  exact Modular.prime_of_certifies 2 _ (List.forall_mem_singleton.2 h₃) (by decide +kernel)

/-- **The order of the generator is prime.** Two prime factors of its predecessor and six twos are
enough. -/
theorem prime_n : n.Prime := by
  have h₁ : Nat.Prime 107361793816595537 :=
    Modular.prime_of_certifies 2 [16699, 85831] (by norm_num) (by decide +kernel)
  have h₂ : Nat.Prime 174723607534414371449 :=
    Modular.prime_of_certifies 2 [44706919, 120233] (by norm_num) (by decide +kernel)
  exact Modular.prime_of_certifies 5
    [2, 2, 2, 2, 2, 2, 107361793816595537, 174723607534414371449]
    (by simp only [List.forall_mem_cons, h₁, h₂]; norm_num) (by decide +kernel)

instance fact_prime_p : Fact p.Prime := ⟨prime_p⟩

instance fact_prime_n : Fact n.Prime := ⟨prime_n⟩

end Secp256k1

end Custody
