import Custody.Ecdsa.Der
import Custody.Proofs.Bytes
/-!
# One encoding for each pair

Reading accepts exactly what writing produces: for elements with fewer than 128 bytes
(`Der.readElement?_eq_some_iff`), for numbers that fit 32 bytes (`Der.readInteger?_eq_some_iff`) and
for pairs (`Der.read?_eq_some_iff`). All elements of a pair are that short, so a length in long form
is never part of an encoding.
-/

namespace Custody.Ecdsa

open Secp256k1 (n)

theorem Pair.ofNat?_eq_some_iff {r s : Nat} {pair : Pair} :
    Pair.ofNat? r s = some pair ↔ pair.r = r ∧ pair.s = s := by
  unfold ofNat?
  constructor
  · intro h
    split at h
    · cases h
      exact ⟨rfl, rfl⟩
    · cases h
  · rintro ⟨rfl, rfl⟩
    rw [dif_pos ⟨pair.r_pos, pair.r_lt, pair.s_pos, pair.s_lt⟩]

theorem n_lt_bound : n < Bytes.bound 32 := by
  decide

theorem Pair.r_lt_bound (pair : Pair) : pair.r < Bytes.bound 32 :=
  Nat.lt_trans pair.r_lt n_lt_bound

theorem Pair.s_lt_bound (pair : Pair) : pair.s < Bytes.bound 32 :=
  Nat.lt_trans pair.s_lt n_lt_bound

/-- A pair is told by its numbers. -/
theorem Pair.ext {a b : Pair} (hr : a.r = b.r) (hs : a.s = b.s) : a = b := by
  obtain ⟨r, s, _, _, _, _⟩ := a
  obtain rfl : r = b.r := hr
  obtain rfl : s = b.s := hs
  rfl

namespace Der

/-! ## Elements -/

/-- Below 128 only the short form of a length is read. -/
theorem readLength?_eq_some_iff {text rest : Bytes} {length : Nat} (hl : length < 128) :
    readLength? text = some (length, rest) ↔ text = UInt8.ofNat length :: rest := by
  have hbyte : (UInt8.ofNat length).toNat = length := by
    rw [UInt8.toNat_ofNat']
    omega
  constructor
  · intro h
    cases text with
    | nil => cases h
    | cons first text =>
      rw [readLength?] at h
      split at h
      · cases h
        simp
      · dsimp only at h
        split at h
        · next hlong =>
          have := (Prod.mk.inj (Option.some.inj h)).1
          omega
        · cases h
  · rintro rfl
    have hshort : UInt8.ofNat length < 128 := by
      rw [UInt8.lt_iff_toNat_lt, hbyte]
      exact hl
    rw [readLength?, if_pos hshort, hbyte]

theorem readElement?_eq_some_iff {tag : UInt8} {text contents rest : Bytes}
    (hl : contents.length < 128) :
    readElement? tag text = some (contents, rest) ↔ text = writeElement tag contents ++ rest := by
  rw [writeElement, writeLength, if_pos hl]
  cases text with
  | nil => simp [readElement?]
  | cons first text =>
    rw [readElement?]
    by_cases ht : first = tag
    · rw [if_pos ht, ht]
      constructor
      · intro h
        cases hr : readLength? text with
        | none => simp [hr] at h
        | some read =>
          obtain ⟨length, following⟩ := read
          rw [hr] at h
          dsimp only at h
          split at h
          · next hle =>
            obtain ⟨rfl, rfl⟩ := Prod.mk.inj (Option.some.inj h)
            rw [List.length_take_of_le hle] at hl ⊢
            rw [(readLength?_eq_some_iff hl).1 hr]
            simp
          · cases h
      · intro h
        have htext : text = UInt8.ofNat contents.length :: (contents ++ rest) := by
          simpa using h
        rw [(readLength?_eq_some_iff hl).2 htext]
        simp
    · rw [if_neg ht]
      simp [ht]

theorem length_writeElement {tag : UInt8} {contents : Bytes} (hl : contents.length < 128) :
    (writeElement tag contents).length = contents.length + 2 := by
  rw [writeElement, writeLength, if_pos hl]
  simp

/-! ## Numbers -/

theorem integerContents_zero : integerContents 0 = [0] := by
  rw [integerContents, Bytes.digits_zero]

/-- The contents of a number whose first digit does not read as a sign. -/
theorem integerContents_of_lt {first : UInt8} {rest : Bytes} (h0 : first ≠ 0)
    (h : first < 128) : integerContents (Bytes.toNat (first :: rest)) = first :: rest := by
  rw [integerContents, Bytes.digits_toNat (b := first :: rest) h0]
  exact if_pos h

/-- The contents of a number whose first digit would read as a sign. -/
theorem integerContents_of_le {first : UInt8} {rest : Bytes} (h : ¬ first < 128) :
    integerContents (Bytes.toNat (first :: rest)) = 0 :: first :: rest := by
  have h0 : first ≠ 0 := by
    rintro rfl
    exact h (by decide)
  rw [integerContents, Bytes.digits_toNat (b := first :: rest) h0]
  exact if_neg h

/-- **The contents of an INTEGER are read exactly when they are those of a number that fits.** -/
theorem integerValue?_eq_some_iff {contents : Bytes} {value : Nat} :
    integerValue? contents = some value ↔
      value < Bytes.bound 32 ∧ contents = integerContents value := by
  constructor
  · intro h
    cases contents with
    | nil => cases h
    | cons first rest =>
      have hsmall {b : Bytes} (hb : b.length ≤ 32) : Bytes.toNat b < Bytes.bound 32 :=
        Nat.lt_of_lt_of_le (Bytes.toNat_lt_bound b) (Bytes.bound_le_bound hb)
      rw [integerValue?] at h
      split at h
      · cases h
      next hsign =>
      split at h
      · next hzero =>
        obtain ⟨rfl, hne⟩ := hzero
        split at h
        · next hpad =>
          obtain rfl := Option.some.inj h
          cases rest with
          | nil => exact absurd rfl hne
          | cons x rest =>
            exact ⟨hsmall hpad.2, (integerContents_of_le (UInt8.not_lt.2 hpad.1)).symm⟩
        · cases h
      · next hzero =>
        split at h
        · next hlen =>
          obtain rfl := Option.some.inj h
          refine ⟨hsmall hlen, ?_⟩
          by_cases h0 : first = 0
          · have hrest : rest = [] := Decidable.not_not.1 fun hne => hzero ⟨h0, hne⟩
            rw [h0, hrest]
            exact integerContents_zero.symm
          · exact (integerContents_of_lt h0 (UInt8.not_le.1 hsign)).symm
        · cases h
  · rintro ⟨hv, rfl⟩
    have hlen := Bytes.length_digits_le hv
    rw [integerContents]
    cases hc : Bytes.digits value with
    | nil =>
      rw [Bytes.digits_eq_nil_iff.1 hc]
      rfl
    | cons first rest =>
      have hnat : Bytes.toNat (first :: rest) = value := by
        rw [← hc, Bytes.toNat_digits]
      have hpos : 0 < value := by
        rw [Nat.pos_iff_ne_zero]
        intro hz
        rw [Bytes.digits_eq_nil_iff.2 hz] at hc
        cases hc
      have h0 : first ≠ 0 := by
        have := Bytes.headD_digits_ne_zero hpos
        rwa [hc] at this
      rw [hc, List.length_cons] at hlen
      dsimp only
      by_cases hs : first < 128
      · rw [if_pos hs, integerValue?, if_neg (UInt8.not_le.2 hs), if_neg fun h => h0 h.1,
          if_pos (by omega), hnat]
      · rw [if_neg hs, integerValue?, if_neg (by decide), if_pos ⟨rfl, List.cons_ne_nil _ _⟩,
          if_pos ⟨UInt8.not_lt.1 hs, hlen⟩, hnat]

theorem length_integerContents {value : Nat} (h : value < Bytes.bound 32) :
    (integerContents value).length ≤ 33 := by
  have hd := Bytes.length_digits_le h
  rw [integerContents]
  cases hc : Bytes.digits value with
  | nil => simp
  | cons first rest =>
    rw [hc, List.length_cons] at hd
    dsimp only
    split
    · rw [List.length_cons]; omega
    · rw [List.length_cons, List.length_cons]; omega

theorem readInteger?_eq_some_iff {text rest : Bytes} {value : Nat} :
    readInteger? text = some (value, rest) ↔
      value < Bytes.bound 32 ∧ text = writeElement integerTag (integerContents value) ++ rest := by
  rw [readInteger?]
  constructor
  · intro h
    obtain ⟨⟨contents, after⟩, he, h⟩ := Option.bind_eq_some_iff.1 h
    obtain ⟨number, hi, h⟩ := Option.bind_eq_some_iff.1 h
    obtain ⟨rfl, rfl⟩ := Prod.mk.inj (Option.some.inj h)
    obtain ⟨hv, rfl⟩ := integerValue?_eq_some_iff.1 hi
    have hl := length_integerContents hv
    exact ⟨hv, (readElement?_eq_some_iff (by omega)).1 he⟩
  · rintro ⟨hv, rfl⟩
    have hl := length_integerContents hv
    rw [(readElement?_eq_some_iff (by omega)).2 rfl]
    simp [integerValue?_eq_some_iff.2 ⟨hv, rfl⟩]

/-! ## Pairs -/

/-- The numbers of a pair are written with fewer than 128 bytes. -/
theorem length_writeIntegers (pair : Pair) :
    (writeElement integerTag (integerContents pair.r) ++
      writeElement integerTag (integerContents pair.s)).length < 128 := by
  have hlr := length_integerContents pair.r_lt_bound
  have hls := length_integerContents pair.s_lt_bound
  rw [List.length_append, length_writeElement (by omega), length_writeElement (by omega)]
  omega

/-- **Reading accepts exactly the encodings of pairs.** -/
theorem read?_eq_some_iff {text : Bytes} {pair : Pair} :
    read? text = some pair ↔ text = write pair := by
  have hr := pair.r_lt_bound
  have hs := pair.s_lt_bound
  have hlen := length_writeIntegers pair
  rw [read?, write]
  constructor
  · intro h
    obtain ⟨⟨contents, after⟩, he, h⟩ := Option.bind_eq_some_iff.1 h
    obtain ⟨⟨r, first⟩, h₁, h⟩ := Option.bind_eq_some_iff.1 h
    obtain ⟨⟨s, rest⟩, h₂, h⟩ := Option.bind_eq_some_iff.1 h
    dsimp only at h₁ h₂ h
    split at h
    · next hend =>
      obtain ⟨rfl, rfl⟩ := Pair.ofNat?_eq_some_iff.1 h
      obtain ⟨rfl, rfl⟩ := hend
      obtain ⟨-, rfl⟩ := readInteger?_eq_some_iff.1 h₁
      obtain ⟨-, rfl⟩ := readInteger?_eq_some_iff.1 h₂
      rw [List.append_nil] at he
      simpa using (readElement?_eq_some_iff hlen).1 he
    · cases h
  · rintro rfl
    have he {contents : Bytes} (hl : contents.length < 128) :
        readElement? sequenceTag (writeElement sequenceTag contents) = some (contents, []) :=
      (readElement?_eq_some_iff hl).2 (List.append_nil _).symm
    have h₂ : readInteger? (writeElement integerTag (integerContents pair.s)) =
        some (pair.s, []) :=
      readInteger?_eq_some_iff.2 ⟨hs, (List.append_nil _).symm⟩
    simp [he hlen, readInteger?_eq_some_iff.2 ⟨hr, rfl⟩, h₂, Pair.ofNat?_eq_some_iff]

end Der

end Custody.Ecdsa
