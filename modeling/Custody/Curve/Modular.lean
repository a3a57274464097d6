/-!
# Modular arithmetic on natural numbers

Powers and inverses modulo a number, as the curve needs them. `pow` squares and multiplies;
`inverse` runs Euclid's algorithm and keeps, for each remainder, the factor that produces it from
the number inverted.
-/

namespace Custody.Modular

/-- The power `b ^ e` modulo `m`. -/
def pow (b e m : Nat) : Nat :=
  if e = 0 then
    1 % m
  else
    let h := pow (b * b % m) (e / 2) m
    if e % 2 = 1 then b * h % m else h
termination_by e

/-- Euclid's algorithm on `r₀` and `r₁`, where `s₀` and `s₁` are the factors that produce them
from the number inverted. The answer is the factor of the last remainder that is not zero. -/
def bezout (r₀ r₁ : Nat) (s₀ s₁ : Int) : Int :=
  if r₁ = 0 then
    s₀
  else
    bezout r₁ (r₀ % r₁) s₁ (s₀ - (r₀ / r₁ : Nat) * s₁)
termination_by r₁
decreasing_by exact Nat.mod_lt _ (by omega)

/-- The number whose product with `a` is one modulo `m`, for `a` prime to `m`. -/
def inverse (a m : Nat) : Nat :=
  (bezout (a % m) m 1 0 % m).toNat

/-- The difference modulo `m`. -/
def sub (a b m : Nat) : Nat :=
  (a + (m - b % m)) % m

end Custody.Modular
