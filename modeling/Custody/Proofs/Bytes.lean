import Custody.Bytes
/-!
# Numbers without leading zeros

`Bytes.digits` writes a number with as few bytes as possible. Reading them gives the number back
(`Bytes.toNat_digits`), and a byte string that does not start with a zero is what is written for its
number (`Bytes.digits_toNat`). A byte string stands for a number below the bound of its width
(`Bytes.toNat_lt_bound`), and a number below a bound has no more digits than that width
(`Bytes.length_digits_le`).
-/

namespace Custody.Bytes

theorem digits_zero : digits 0 = [] := by
  rw [digits, if_pos rfl]

theorem digits_of_pos {n : Nat} (h : 0 < n) : digits n = digits (n / 256) ++ [UInt8.ofNat n] := by
  rw [digits, if_neg (by omega)]

theorem toNat_digits (n : Nat) : toNat (digits n) = n := by
  induction n using Nat.strongRecOn with
  | ind n ih =>
    rcases Nat.eq_zero_or_pos n with rfl | hn
    · rw [digits_zero, toNat_nil]
    · rw [digits_of_pos hn, toNat_append_singleton, ih (n / 256) (by omega), UInt8.toNat_ofNat']
      omega

theorem digits_eq_nil_iff {n : Nat} : digits n = [] ↔ n = 0 := by
  constructor
  · intro h
    rw [← toNat_digits n, h, toNat_nil]
  · rintro rfl
    exact digits_zero

/-- The first digit is not zero. -/
theorem headD_digits_ne_zero {n : Nat} (h : 0 < n) : (digits n).headD 0 ≠ 0 := by
  induction n using Nat.strongRecOn with
  | ind n ih =>
    rw [digits_of_pos h]
    rcases Nat.eq_zero_or_pos (n / 256) with hd | hd
    · have hn : UInt8.ofNat n ≠ 0 := by
        intro hz
        have := congrArg UInt8.toNat hz
        rw [UInt8.toNat_ofNat'] at this
        simp at this
        omega
      simpa [hd, digits_zero] using hn
    · have hrest := ih (n / 256) (by omega) hd
      cases hc : digits (n / 256) with
      | nil => exact absurd (digits_eq_nil_iff.1 hc) (by omega)
      | cons first rest => simpa [hc] using hrest

theorem toNat_cons (x : UInt8) (b : Bytes) :
    toNat (x :: b) = x.toNat * bound b.length + toNat b := by
  generalize hl : b.length = width
  induction width generalizing b with
  | zero => simp [List.length_eq_zero_iff.1 hl, toNat, bound]
  | succ width ih =>
    have hb : b ≠ [] := by
      rintro rfl
      simp at hl
    have hd : b.dropLast.length = width := by simp [hl]
    rw [← List.dropLast_concat_getLast hb, ← List.cons_append, toNat_append_singleton,
      toNat_append_singleton, ih b.dropLast hd, bound, Nat.add_mul, Nat.mul_assoc, Nat.add_assoc]

theorem toNat_lt_bound (b : Bytes) : toNat b < bound b.length := by
  induction b with
  | nil => exact Nat.one_pos
  | cons x b ih =>
    have hx := x.toNat_lt
    have hmul : x.toNat * bound b.length + bound b.length ≤ 256 * bound b.length := by
      rw [← Nat.succ_mul]
      exact Nat.mul_le_mul_right _ hx
    rw [toNat_cons, List.length_cons, bound]
    omega

theorem bound_le_bound {v w : Nat} (h : v ≤ w) : bound v ≤ bound w := by
  induction h with
  | refl => exact Nat.le_refl _
  | step _ ih =>
    rw [bound]
    omega

theorem length_digits_le {n width : Nat} (h : n < bound width) : (digits n).length ≤ width := by
  induction width generalizing n with
  | zero =>
    have hn : n = 0 := by
      rw [bound] at h
      omega
    simp [hn, digits_zero]
  | succ width ih =>
    rcases Nat.eq_zero_or_pos n with rfl | hn
    · simp [digits_zero]
    · have hdiv : n / 256 < bound width := by
        rw [bound] at h
        omega
      rw [digits_of_pos hn, List.length_append, List.length_singleton]
      exact Nat.succ_le_succ (ih hdiv)

/-- Byte strings of one width are told apart by their numbers. -/
theorem eq_of_toNat_eq {a b : Bytes} (hl : a.length = b.length) (hn : toNat a = toNat b) :
    a = b := by
  rw [← ofNat_toNat a, ← ofNat_toNat b, hl, hn]

/-- A byte string that does not start with a zero has as few bytes as its number allows. -/
theorem digits_toNat {b : Bytes} (h : b.headD 0 ≠ 0) : digits (toNat b) = b := by
  cases b with
  | nil => exact absurd rfl h
  | cons x b =>
    have hx : 0 < x.toNat := by
      rw [Nat.pos_iff_ne_zero]
      intro hx
      exact h (UInt8.toNat_inj.1 hx)
    have hle : (digits (toNat (x :: b))).length ≤ b.length + 1 :=
      length_digits_le (toNat_lt_bound (x :: b))
    -- the number is too large for fewer digits
    have hge : bound b.length ≤ toNat (x :: b) := by
      rw [toNat_cons]
      exact Nat.le_trans (Nat.le_mul_of_pos_left _ hx) (Nat.le_add_right _ _)
    have hlt : b.length < (digits (toNat (x :: b))).length := by
      rw [← Nat.not_le]
      intro hshort
      have hbound := toNat_lt_bound (digits (toNat (x :: b)))
      rw [toNat_digits] at hbound
      have := bound_le_bound hshort
      omega
    exact eq_of_toNat_eq (by rw [List.length_cons]; omega) (toNat_digits _)

end Custody.Bytes
