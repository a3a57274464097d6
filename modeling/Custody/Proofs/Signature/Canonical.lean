import Custody.Proofs.Ecdsa.Der
import Custody.Signature
/-!
# Two ways to the signer's address

`CanonicalSignature.ofDer` searches for the recovery id that gives an expected address, on the pair
that it has read; `CanonicalSignature.recoverAddress` reads the pair back from the fixed width of a
finished signature. Both come to the same address (`recoverAddress_ofPair`), so the search can be
said in terms of the second alone (`ofDer_outcome`).

* `Ecdsa.Pair.lowS_s`: the low form has the lesser of `s` and its negative.
* `CanonicalSignature.signedBy_iff`: a recovery id is accepted when the finished signature recovers
  to the expected address.
-/

namespace Custody

open Ecdsa Secp256k1

/-! ## Low forms -/

namespace Ecdsa

theorem n_odd : n % 2 = 1 := by
  decide

namespace Pair

theorem lowS_r (pair : Pair) : pair.lowS.r = pair.r := by
  unfold lowS
  split <;> rfl

theorem lowS_s (pair : Pair) : pair.lowS.s = min pair.s (n - pair.s) := by
  have hn := n_odd
  unfold lowS
  split
  · next h =>
    have h : pair.s ≤ n / 2 := h
    omega
  · next h =>
    have h : ¬ pair.s ≤ n / 2 := h
    change n - pair.s = _
    omega

theorem isLow_lowS (pair : Pair) : pair.lowS.IsLow := by
  have hn := n_odd
  rw [IsLow, lowS_s]
  omega

end Pair

theorem RecoveryId.ofByte?_ofNat (id : RecoveryId) :
    RecoveryId.ofByte? (UInt8.ofNat id.val) = some id := by
  revert id
  decide

end Ecdsa

/-! ## Reading a finished signature -/

namespace CanonicalSignature

/-- The numbers of a pair are read back from their fixed width. -/
theorem ofNat?_ofPair (pair : Pair) (id : RecoveryId) :
    Pair.ofNat? (ofPair pair id).r.toNat (ofPair pair id).s.toNat = some pair := by
  rw [Pair.ofNat?_eq_some_iff, ofPair, Bytes32.toNat_ofNat (Nat.lt_trans pair.r_lt n_lt_bound),
    Bytes32.toNat_ofNat (Nat.lt_trans pair.s_lt n_lt_bound)]
  exact ⟨rfl, rfl⟩

/-- A finished signature recovers to the address of the key that its recovery id gives. -/
theorem recoverAddress_ofPair (pair : Pair) (id : RecoveryId) (digest : Bytes) :
    (ofPair pair id).recoverAddress digest =
      match recover? digest pair id with
      | none => .error (.recoveryFailed "a recoverable key")
      | some key => .ok (address key) := by
  have hid : RecoveryId.ofByte? (ofPair pair id).recoveryId = some id :=
    RecoveryId.ofByte?_ofNat id
  cases h : recover? digest pair id with
  | none => simp only [recoverAddress, ofNat?_ofPair, hid, h]
  | some key => simp only [recoverAddress, ofNat?_ofPair, hid, h]

/-- The signature recovers to an address that is the expected one but for the case of letters. -/
def RecoversTo (sig : CanonicalSignature) (digest : Bytes) (expected : String) : Prop :=
  ∃ found, sig.recoverAddress digest = .ok found ∧ sameButCase found expected = true

theorem signedBy_iff {digest : Bytes} {pair : Pair} {expected : String} {id : RecoveryId} :
    signedBy digest pair expected id = true ↔ (ofPair pair id).RecoversTo digest expected := by
  rw [RecoversTo, recoverAddress_ofPair, signedBy]
  cases recover? digest pair id with
  | none => simp
  | some key => simp

/-! ## The search -/

/-- The signature with the numbers of a pair, of `s` and its negative the lesser, and a recovery
id. -/
def candidate (pair : Pair) (id : UInt8) : CanonicalSignature where
  r := .ofNat pair.r
  s := .ofNat (min pair.s (n - pair.s))
  recoveryId := id

theorem ofPair_lowS (pair : Pair) (id : RecoveryId) :
    ofPair pair.lowS id = candidate pair (UInt8.ofNat id.val) := by
  rw [ofPair, candidate, Pair.lowS_r, Pair.lowS_s]

theorem signedBy_lowS_iff {digest : Bytes} {pair : Pair} {expected : String} {id : RecoveryId} :
    signedBy digest pair.lowS expected id = true ↔
      (candidate pair (UInt8.ofNat id.val)).RecoversTo digest expected := by
  rw [signedBy_iff, ofPair_lowS]

/-- The search tries the ids zero and one in order. -/
theorem find?_candidates (p : RecoveryId → Bool) :
    candidates.find? p = if p 0 then some 0 else if p 1 then some 1 else none := by
  rw [candidates]
  cases h0 : p 0 <;> cases h1 : p 1 <;> simp [h0, h1]

/-- **What the search comes to.** For a digest of the right length and the encoding of a pair, the
first candidate of zero and one that recovers to the expected address is given, in low form and
fixed width; without one no signer is found. -/
theorem ofDer_write {digest : Bytes} (hl : digest.length = hashLength) (pair : Pair)
    (expected : String) [Decidable ((candidate pair 0).RecoversTo digest expected)]
    [Decidable ((candidate pair 1).RecoversTo digest expected)] :
    ofDer (Der.write pair) digest expected =
      if (candidate pair 0).RecoversTo digest expected then .ok (candidate pair 0)
      else if (candidate pair 1).RecoversTo digest expected then .ok (candidate pair 1)
      else .error (.recoveryFailed expected) := by
  have h0 : signedBy digest pair.lowS expected 0 = true ↔
      (candidate pair 0).RecoversTo digest expected := signedBy_lowS_iff
  have h1 : signedBy digest pair.lowS expected 1 = true ↔
      (candidate pair 1).RecoversTo digest expected := signedBy_lowS_iff
  rw [ofDer, if_neg (Decidable.not_not.2 hl), Der.read?_eq_some_iff.2 rfl]
  dsimp only
  rw [find?_candidates]
  by_cases hr0 : (candidate pair 0).RecoversTo digest expected
  · rw [if_pos (h0.2 hr0), if_pos hr0]
    exact congrArg Except.ok (ofPair_lowS pair 0)
  · rw [if_neg (mt h0.1 hr0), if_neg hr0]
    by_cases hr1 : (candidate pair 1).RecoversTo digest expected
    · rw [if_pos (h1.2 hr1), if_pos hr1]
      exact congrArg Except.ok (ofPair_lowS pair 1)
    · rw [if_neg (mt h1.1 hr1), if_neg hr1]

/-- The numbers of a candidate fit their width, and the second is low. -/
theorem candidate_numbers (pair : Pair) (id : UInt8) :
    (candidate pair id).r.toNat = pair.r ∧
      (candidate pair id).s.toNat = min pair.s (n - pair.s) ∧
      (candidate pair id).s.toNat ≤ n / 2 := by
  have hlow := pair.isLow_lowS
  have hs : (candidate pair id).s.toNat = min pair.s (n - pair.s) := by
    refine Bytes32.toNat_ofNat (Nat.lt_of_le_of_lt (Nat.min_le_left _ _) ?_)
    exact Nat.lt_trans pair.s_lt n_lt_bound
  refine ⟨Bytes32.toNat_ofNat (Nat.lt_trans pair.r_lt n_lt_bound), hs, ?_⟩
  rwa [hs, ← Pair.lowS_s]

/-- A digest of a wrong length and a text that is not the encoding of a pair are malformed. -/
theorem ofDer_malformed {der digest : Bytes} (expected : String)
    (h : digest.length ≠ hashLength ∨ ∀ pair, der ≠ Der.write pair) :
    ∃ reason, ofDer der digest expected = .error (.malformedSignature reason) := by
  by_cases hl : digest.length = hashLength
  · have hnone : Der.read? der = none := by
      rw [Option.eq_none_iff_forall_ne_some]
      intro pair hp
      exact (h.resolve_left (absurd hl)) pair (Der.read?_eq_some_iff.1 hp)
    exact ⟨_, by rw [ofDer, if_neg (Decidable.not_not.2 hl), hnone]⟩
  · exact ⟨_, by rw [ofDer, if_pos hl]⟩

theorem eq_zero_or_one_of_lt_two {id : UInt8} (h : id < 2) : id = 0 ∨ id = 1 := by
  rw [UInt8.lt_iff_toNat_lt] at h
  rw [← UInt8.toNat_inj, ← UInt8.toNat_inj]
  change id.toNat < 2 at h
  change id.toNat = 0 ∨ id.toNat = 1
  omega

/-- The search ends with a signature exactly when that is the candidate with the least recovery id
of zero and one that recovers to the expected address. -/
theorem ofDer_write_eq_ok_iff {digest : Bytes} (hl : digest.length = hashLength) (pair : Pair)
    (expected : String) (sig : CanonicalSignature) :
    ofDer (Der.write pair) digest expected = .ok sig ↔
      ∃ id : UInt8, id < 2 ∧ (candidate pair id).RecoversTo digest expected ∧
        (∀ less < id, ¬ (candidate pair less).RecoversTo digest expected) ∧
        sig = candidate pair id := by
  classical
  rw [ofDer_write hl]
  constructor
  · intro h
    split at h
    · next h0 =>
      refine ⟨0, by decide, h0, fun less hless => ?_, (Except.ok.inj h).symm⟩
      exact absurd hless (UInt8.not_lt.2 UInt8.zero_le)
    next h0 =>
    split at h
    · next h1 =>
      refine ⟨1, by decide, h1, fun less hless => ?_, (Except.ok.inj h).symm⟩
      obtain rfl | rfl := eq_zero_or_one_of_lt_two (UInt8.lt_trans hless (by decide))
      · exact h0
      · exact absurd hless (UInt8.lt_irrefl 1)
    · cases h
  · rintro ⟨id, hid, hrec, hleast, rfl⟩
    obtain rfl | rfl := eq_zero_or_one_of_lt_two hid
    · rw [if_pos hrec]
    · rw [if_neg (hleast 0 (by decide)), if_pos hrec]

theorem ofDer_write_of_none {digest : Bytes} (hl : digest.length = hashLength) (pair : Pair)
    (expected : String)
    (h : ∀ id : UInt8, id < 2 → ¬ (candidate pair id).RecoversTo digest expected) :
    ofDer (Der.write pair) digest expected = .error (.recoveryFailed expected) := by
  classical
  rw [ofDer_write hl, if_neg (h 0 (by decide)), if_neg (h 1 (by decide))]

/-- **What becomes of an encoded signature.** A digest of a wrong length and a text that is not the
encoding of a pair are malformed. For the encoding of a pair the result is the candidate with the
least id of zero and one that recovers, read back from its fixed width, to the expected address but
for the case of letters; its `r` is that of the pair, and its `s` the low one. Where neither
candidate does, no signer is found. -/
theorem ofDer_outcome (der digest : Bytes) (expected : String) :
    (digest.length ≠ hashLength ∨ (∀ pair, der ≠ Der.write pair) →
      ∃ reason, ofDer der digest expected = .error (.malformedSignature reason)) ∧
    ∀ pair, der = Der.write pair → digest.length = hashLength →
      (∀ sig, ofDer der digest expected = .ok sig ↔
        ∃ id : UInt8, id < 2 ∧ (candidate pair id).RecoversTo digest expected ∧
          (∀ less < id, ¬ (candidate pair less).RecoversTo digest expected) ∧
          sig = candidate pair id) ∧
      ((∀ id : UInt8, id < 2 → ¬ (candidate pair id).RecoversTo digest expected) →
        ofDer der digest expected = .error (.recoveryFailed expected)) ∧
      ∀ id, (candidate pair id).r.toNat = pair.r ∧
        (candidate pair id).s.toNat = min pair.s (n - pair.s) ∧
        (candidate pair id).s.toNat ≤ n / 2 := by
  refine ⟨ofDer_malformed expected, ?_⟩
  rintro pair rfl hl
  exact ⟨ofDer_write_eq_ok_iff hl pair expected, ofDer_write_of_none hl pair expected,
    candidate_numbers pair⟩

end CanonicalSignature

end Custody
