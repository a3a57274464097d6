/-!
# Numbers as texts write them

A number is kept digit by digit, because what may be done with it depends on how it is written: an
integer has neither fraction nor exponent (`Number.toNat?`), and a number that is to become a
floating point value must not exceed the largest one (`Number.isFinite`).
-/

namespace Custody.Json

/-- A number as it is written. Digits are numbers below ten. -/
structure Number where
  negative : Bool
  whole : List Nat
  fraction : List Nat
  /-- The sign (true for minus) and the digits of the exponent. -/
  exponent : Option (Bool × List Nat)
  deriving DecidableEq, Repr

/-- The number that digits write in base ten. -/
def ofDigits (digits : List Nat) : Nat :=
  digits.foldl (fun k d => k * 10 + d) 0

/-- The digits of a number in base ten. -/
def digitsOf (k : Nat) : List Nat :=
  if k < 10 then [k] else digitsOf (k / 10) ++ [k % 10]
termination_by k

/-- The character of a digit. -/
def digitChar (d : Nat) : Char :=
  Char.ofNat (48 + d)

/-- Rounds to the given number of significant bits, a tie to the even neighbour. -/
def roundBits (bits k : Nat) : Nat :=
  let unit := 1 <<< (k.log2 + 1 - bits)
  let q := k / unit
  let double := 2 * (k % unit)
  (if unit < double ∨ (double = unit ∧ q % 2 = 1) then q + 1 else q) * unit

namespace Number

/-- The number zero or above, written without sign, fraction or exponent. -/
def ofNat (k : Nat) : Number :=
  ⟨false, digitsOf k, [], none⟩

/-- The value of an integer that is written without sign, fraction or exponent. -/
def toNat? (x : Number) : Option Nat :=
  if x.negative = false ∧ x.fraction = [] ∧ x.exponent = none then
    some (ofDigits x.whole)
  else
    none

/-- The characters of a number. -/
def chars (x : Number) : List Char :=
  (if x.negative then ['-'] else []) ++ x.whole.map digitChar ++
    (if x.fraction = [] then [] else '.' :: x.fraction.map digitChar) ++
    match x.exponent with
    | none => []
    | some (minus, digits) => 'e' :: (if minus then ['-'] else []) ++ digits.map digitChar

/-- A whole number below `2 ^ 64` and a power of ten to scale it by. -/
structure Scaled where
  significand : Nat
  scale : Int

/-- Takes in digits before the point, as long as the significand stays below `2 ^ 64`; the digits
after that only scale it. -/
def Scaled.takeWhole (significand : Nat) : List Nat → Scaled
  | [] => ⟨significand, 0⟩
  | d :: rest =>
    if significand * 10 + d < UInt64.size then takeWhole (significand * 10 + d) rest
    else ⟨significand, rest.length + 1⟩

/-- Takes in digits after the point, as long as the significand stays below `2 ^ 64`; the digits
after that count for nothing. -/
def Scaled.takeFraction (x : Scaled) : List Nat → Scaled
  | [] => x
  | d :: rest =>
    if x.significand * 10 + d < UInt64.size then
      takeFraction ⟨x.significand * 10 + d, x.scale - 1⟩ rest
    else
      x

/-- The leading digits of a number and their scale. -/
def scaled (x : Number) : Scaled :=
  let y := (Scaled.takeWhole 0 x.whole).takeFraction x.fraction
  match x.exponent with
  | none => y
  | some (minus, digits) =>
    { y with scale := if minus then y.scale - ofDigits digits else y.scale + ofDigits digits }

/-- The number, computed in floating point as its leading digits times a power of ten, does not
exceed the largest floating point value. -/
def isFinite (x : Number) : Bool :=
  let y := x.scaled
  y.scale ≤ 0 || y.significand = 0 ||
    (y.scale ≤ 308 &&
      roundBits 53 y.significand * roundBits 53 (Nat.pow 10 y.scale.toNat) <
        (1 <<< 1024) - (1 <<< 970))

end Number

end Custody.Json
