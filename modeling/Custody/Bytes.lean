/-!
# Byte strings and big-endian numbers

A byte string is a list of bytes. `Bytes.toNat` reads one as a number in base 256, most
significant byte first, and `Bytes.ofNat` writes a number in a fixed width; `Bytes32` is the type
of 32-byte words. Reading what was written gives the number back as long as it fits the width
(`Bytes.toNat_ofNat`), and a word is determined by its number (`Bytes.ofNat_toNat`).
-/

namespace Custody

/-- A byte string. -/
abbrev Bytes := List UInt8

namespace Bytes

/-- The number a byte string writes in base 256, most significant byte first. -/
def toNat (b : Bytes) : Nat :=
  b.foldl (fun n x => n * 256 + x.toNat) 0

/-- How many byte strings have a width; the numbers below it are those that fit. -/
def bound : (width : Nat) → Nat
  | 0 => 1
  | width + 1 => bound width * 256

/-- The last `width` digits of `n` in base 256, most significant first. -/
def ofNat : (width : Nat) → (n : Nat) → Bytes
  | 0, _ => []
  | width + 1, n => ofNat width (n / 256) ++ [UInt8.ofNat n]

/-- The digits of `n` in base 256 without leading zeros, most significant first; zero has none. -/
def digits (n : Nat) : Bytes :=
  if n = 0 then [] else digits (n / 256) ++ [UInt8.ofNat n]
termination_by n

@[simp] theorem length_ofNat (width n : Nat) : (ofNat width n).length = width := by
  induction width generalizing n with
  | zero => rfl
  | succ width ih => simp [ofNat, ih]

@[simp] theorem toNat_nil : toNat [] = 0 := rfl

theorem toNat_append_singleton (b : Bytes) (x : UInt8) :
    toNat (b ++ [x]) = toNat b * 256 + x.toNat := by
  simp [toNat]

/-- Reading a number written in `width` digits gives it modulo `bound width`. -/
theorem toNat_ofNat_mod (width n : Nat) : toNat (ofNat width n) = n % bound width := by
  induction width generalizing n with
  | zero => simp [ofNat, bound, Nat.mod_one]
  | succ width ih =>
    rw [ofNat, toNat_append_singleton, ih, bound, Nat.mul_comm, Nat.mul_comm (bound width),
      Nat.mod_mul, UInt8.toNat_ofNat']
    omega

theorem toNat_ofNat {width n : Nat} (h : n < bound width) : toNat (ofNat width n) = n := by
  rw [toNat_ofNat_mod, Nat.mod_eq_of_lt h]

/-- A byte string is the number that it writes, in its own width. -/
theorem ofNat_toNat (b : Bytes) : ofNat b.length (toNat b) = b := by
  generalize h : b.length = width
  induction width generalizing b with
  | zero => simp [ofNat, List.length_eq_zero_iff.1 h]
  | succ width ih =>
    have hb : b ≠ [] := by
      intro hb
      simp [hb] at h
    have hx := (b.getLast hb).toNat_lt
    have hd : b.dropLast.length = width := by simp [h]
    rw [← List.dropLast_concat_getLast hb, toNat_append_singleton, ofNat,
      show (toNat b.dropLast * 256 + (b.getLast hb).toNat) / 256 = toNat b.dropLast by omega,
      ih b.dropLast hd]
    simp [UInt8.ofNat_add, UInt8.ofNat_mul]

end Bytes

/-- A word of 32 bytes. -/
abbrev Bytes32 := { b : Bytes // b.length = 32 }

namespace Bytes32

/-- The word that writes `n`, big-endian and padded on the left. -/
def ofNat (n : Nat) : Bytes32 :=
  ⟨Bytes.ofNat 32 n, Bytes.length_ofNat 32 n⟩

/-- The number a word writes. -/
def toNat (w : Bytes32) : Nat :=
  Bytes.toNat w.val

/-- A byte string as a word, when it has 32 bytes. -/
def ofBytes? (b : Bytes) : Option Bytes32 :=
  if h : b.length = 32 then some ⟨b, h⟩ else none

theorem toNat_ofNat {n : Nat} (h : n < Bytes.bound 32) : (ofNat n).toNat = n :=
  Bytes.toNat_ofNat h

end Bytes32

end Custody
