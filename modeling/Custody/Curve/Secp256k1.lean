import Custody.Bytes
import Custody.Curve.Modular
/-!
# The curve secp256k1

Points of `y² = x³ + 7` over the integers modulo `p`, in affine coordinates with a point at
infinity; coordinates are numbers below `p`. The group operation is given by the chord and tangent
formulas, multiples by doubling and adding. A public key is written as the standard's octet
strings: `decompress` finds the point with a given abscissa and parity, and `Point.ofOctets?`
reads the compressed, the compact and the uncompressed form.
-/

namespace Custody.Secp256k1

/-- The order of the field. -/
def p : Nat := 0xFFFFFFFFFFFFFFFFFFFFFFFFFFFFFFFFFFFFFFFFFFFFFFFFFFFFFFFEFFFFFC2F

/-- The order of the generator. -/
def n : Nat := 0xFFFFFFFFFFFFFFFFFFFFFFFFFFFFFFFEBAAEDCE6AF48A03BBFD25E8CD0364141

/-- A point in affine coordinates, or the point at infinity. -/
inductive Point
  | infinity
  | affine (x y : Nat)
  deriving DecidableEq, Repr

/-- The generator of the group. -/
def generator : Point :=
  .affine 0x79BE667EF9DCBBAC55A06295CE870B07029BFCDB2DCE28D959F2815B16F81798
    0x483ADA7726A3C4655DA4FBFC0E1108A8FD17B448A68554199C47D08FFB10D4B8

/-- The right-hand side of the curve's equation, `x³ + 7`. -/
def cubic (x : Nat) : Nat :=
  (x * x % p * x + 7) % p

namespace Point

/-- The third point, reflected, of the line with slope `l` through a point with coordinates
`x₁`, `y₁` and one with abscissa `x₂`. -/
def third (l x₁ y₁ x₂ : Nat) : Point :=
  let x₃ := Modular.sub (l * l % p) ((x₁ + x₂) % p) p
  .affine x₃ (Modular.sub (l * Modular.sub x₁ x₃ p % p) y₁ p)

/-- The group operation: the chord through two points, the tangent at a doubled one, and infinity
for a point and its opposite. -/
def add : Point → Point → Point
  | .infinity, b => b
  | a, .infinity => a
  | .affine x₁ y₁, .affine x₂ y₂ =>
    if x₁ = x₂ then
      if y₁ = y₂ ∧ y₁ ≠ 0 then
        third (3 * (x₁ * x₁ % p) * Modular.inverse (2 * y₁) p % p) x₁ y₁ x₂
      else
        .infinity
    else
      third (Modular.sub y₂ y₁ p * Modular.inverse (Modular.sub x₂ x₁ p) p % p) x₁ y₁ x₂

/-- The multiple `k • a`, by doubling and adding. -/
def mul (k : Nat) (a : Point) : Point :=
  if k = 0 then
    .infinity
  else
    let half := mul (k / 2) (a.add a)
    if k % 2 = 1 then a.add half else half
termination_by k

/-- The point is on the curve and its coordinates are canonical. -/
def OnCurve : Point → Prop
  | .infinity => True
  | .affine x y => x < p ∧ y < p ∧ y * y % p = cubic x

instance (a : Point) : Decidable a.OnCurve := by
  cases a <;> unfold OnCurve <;> infer_instance

end Point

/-- The point with abscissa `x` whose ordinate is odd or even as asked. A square root modulo `p` is
a power, because `p` is 3 modulo 4. -/
def decompress (x : Nat) (odd : Bool) : Option Point :=
  if x < p then
    let y := Modular.pow (cubic x) ((p + 1) / 4) p
    if y * y % p = cubic x then
      some (.affine x (if (y % 2 == 1) = odd then y else (p - y) % p))
    else
      none
  else
    none

/-- Reads a public key: a tag of 2 or 3 and an abscissa (compressed, the tag gives the parity), a
tag of 5 and an abscissa (compact, even parity), or a tag of 4 and both coordinates. The point at
infinity is no public key. -/
def Point.ofOctets? : Bytes → Option Point
  | [] => none
  | tag :: rest =>
    if tag = 4 then
      let point := .affine (Bytes.toNat (rest.take 32)) (Bytes.toNat (rest.drop 32))
      if rest.length = 64 ∧ point.OnCurve then some point else none
    else if rest.length = 32 ∧ (tag = 2 ∨ tag = 3 ∨ tag = 5) then
      decompress (Bytes.toNat rest) (tag == 3)
    else
      none

/-- The coordinates of a point, 32 bytes each: its uncompressed octet string without the tag. The
point at infinity has none. -/
def Point.coordinates : Point → Bytes
  | .infinity => []
  | .affine x y => Bytes.ofNat 32 x ++ Bytes.ofNat 32 y

end Custody.Secp256k1
