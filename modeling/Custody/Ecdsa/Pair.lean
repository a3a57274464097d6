import Custody.Curve.Secp256k1
/-!
# Signature pairs

An ECDSA signature is a pair of numbers `r` and `s` between one and the group order less one. A
signature stays valid when `s` is replaced by its negative; the pair with the smaller of the two is
the low form (`Pair.lowS`), and of a pair and its opposite exactly one is low.
-/

namespace Custody.Ecdsa

open Secp256k1 (n)

/-- Two numbers between one and the group order less one. -/
structure Pair where
  r : Nat
  s : Nat
  r_pos : 0 < r
  r_lt : r < n
  s_pos : 0 < s
  s_lt : s < n
  deriving DecidableEq

namespace Pair

/-- The pair of two numbers, if both are in range. -/
def ofNat? (r s : Nat) : Option Pair :=
  if h : 0 < r ∧ r < n ∧ 0 < s ∧ s < n then
    some ⟨r, s, h.1, h.2.1, h.2.2.1, h.2.2.2⟩
  else
    none

/-- The second number is at most half the group order. -/
def IsLow (pair : Pair) : Prop :=
  pair.s ≤ n / 2

instance (pair : Pair) : Decidable pair.IsLow :=
  inferInstanceAs (Decidable (pair.s ≤ n / 2))

/-- The pair with `s` replaced by its negative. -/
def opposite (pair : Pair) : Pair where
  r := pair.r
  s := n - pair.s
  r_pos := pair.r_pos
  r_lt := pair.r_lt
  s_pos := by have := pair.s_lt; omega
  s_lt := by have := pair.s_pos; have := pair.s_lt; omega

/-- The low one of a pair and its opposite. -/
def lowS (pair : Pair) : Pair :=
  if pair.IsLow then pair else pair.opposite

end Pair

end Custody.Ecdsa
