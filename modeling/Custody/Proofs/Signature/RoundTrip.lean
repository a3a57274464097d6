import Custody.Proofs.Ecdsa.Recovery
import Custody.Proofs.Signature.Canonical
/-!
# Signing and recovering go round

The signature that a secret makes, encoded and read back, gives the address of the secret's key; and
so does its opposite (`CanonicalSignature.ofDer_roundTrip`). Addresses are in lower case, so that
the search, which overlooks case, and the address recovered in the end agree to the letter
(`CanonicalSignature.recoversTo_address_iff`).
-/

namespace Custody

open Ecdsa Secp256k1

/-! ## Addresses are in lower case -/

theorem Text.Hex.toLower_digit {k : Nat} (h : k < 16) : (digit k).toLower = digit k := by
  revert k
  decide

theorem Text.Hex.map_toLower_encodeChars (b : Bytes) :
    (encodeChars b).map Char.toLower = encodeChars b := by
  induction b with
  | nil => rfl
  | cons x b ih =>
    have hx := x.toNat_lt
    have hhigh := toLower_digit (k := x.toNat / 16) (by omega)
    have hlow := toLower_digit (k := x.toNat % 16) (by omega)
    rw [encodeChars, List.flatMap_cons, List.map_append, List.map_cons, List.map_cons, List.map_nil,
      hhigh, hlow]
    exact congrArg _ ih

theorem map_toLower_address (key : Point) :
    (address key).toList.map Char.toLower = (address key).toList := by
  have hhex (b : Bytes) : (Text.Hex.encode b).toList = Text.Hex.encodeChars b :=
    String.toList_ofList
  rw [address, String.toList_append, List.map_append, hhex, Text.Hex.map_toLower_encodeChars]
  rfl

/-- Addresses that differ in the case of letters only are equal. -/
theorem sameButCase_address_iff {a b : Point} :
    sameButCase (address a) (address b) = true ↔ address a = address b := by
  rw [sameButCase, beq_iff_eq, map_toLower_address, map_toLower_address, String.toList_inj]

namespace CanonicalSignature

/-- **What recovering takes**: numbers in range, a recovery id that there is, and a key. -/
theorem recoverAddress_eq_ok_iff {sig : CanonicalSignature} {digest : Bytes} {found : String} :
    sig.recoverAddress digest = .ok found ↔
      ∃ pair id key, Pair.ofNat? sig.r.toNat sig.s.toNat = some pair ∧
        RecoveryId.ofByte? sig.recoveryId = some id ∧ recover? digest pair id = some key ∧
        address key = found := by
  unfold recoverAddress
  cases Pair.ofNat? sig.r.toNat sig.s.toNat with
  | none => simp
  | some pair =>
    cases RecoveryId.ofByte? sig.recoveryId with
    | none => simp
    | some id => cases h : recover? digest pair id <;> simp [h]

theorem recoversTo_address_iff {sig : CanonicalSignature} {digest : Bytes} {key : Point} :
    sig.RecoversTo digest (address key) ↔ sig.recoverAddress digest = .ok (address key) := by
  constructor
  · rintro ⟨found, hfound, hsame⟩
    obtain ⟨-, -, other, -, -, -, rfl⟩ := recoverAddress_eq_ok_iff.1 hfound
    rw [hfound, sameButCase_address_iff.1 hsame]
  · intro h
    exact ⟨_, h, sameButCase_address_iff.2 rfl⟩

/-! ## The round trip -/

variable {d k : Nat} {digest : Bytes} {pair : Pair}

/-- One of the two candidates recovers to the signer's address. -/
theorem recoversTo_candidate (hl : digest.length = hashLength) (hd : (d : ZMod n) ≠ 0)
    (h : pair.IsSignature d k (Bytes.toNat digest)) :
    (candidate pair 0).RecoversTo digest (address (Point.mul d generator)) ∨
      (candidate pair 1).RecoversTo digest (address (Point.mul d generator)) := by
  obtain ⟨k, hlow⟩ := h.lowS
  obtain ⟨y, hy⟩ := recover?_eq hl pair.isLow_lowS hd hlow
  have hrec : (candidate pair (UInt8.ofNat (RecoveryId.ofOrdinate y).val)).RecoversTo digest
      (address (Point.mul d generator)) := by
    rw [recoversTo_address_iff, ← ofPair_lowS pair (.ofOrdinate y), recoverAddress_ofPair, hy]
  rcases Nat.mod_two_eq_zero_or_one y with hpar | hpar
  · rw [show (RecoveryId.ofOrdinate y).val = 0 from hpar] at hrec
    exact Or.inl hrec
  · rw [show (RecoveryId.ofOrdinate y).val = 1 from hpar] at hrec
    exact Or.inr hrec

/-- The search on the encoding of a signature ends with the signer's address. -/
theorem ofDer_write_of_isSignature (hl : digest.length = hashLength) (hd : (d : ZMod n) ≠ 0)
    (h : pair.IsSignature d k (Bytes.toNat digest)) :
    ∃ id : UInt8, (id = 0 ∨ id = 1) ∧
      ofDer (Der.write pair) digest (address (Point.mul d generator)) = .ok (candidate pair id) ∧
      (candidate pair id).recoverAddress digest = .ok (address (Point.mul d generator)) := by
  classical
  have hrec := recoversTo_candidate hl hd h
  rw [ofDer_write hl]
  by_cases h0 : (candidate pair 0).RecoversTo digest (address (Point.mul d generator))
  · exact ⟨0, Or.inl rfl, if_pos h0, recoversTo_address_iff.1 h0⟩
  · have h1 := hrec.resolve_left h0
    exact ⟨1, Or.inr rfl, by rw [if_neg h0, if_pos h1], recoversTo_address_iff.1 h1⟩

/-- **A signature and its opposite both lead back to the signer.** For a secret and a nonce whose
point has an abscissa in range, the search on the encoding of either pair, with the address of the
secret's key, gives a signature with `s` at most half the group order and a recovery id of zero or
one, and what that recovers from the digest is the address itself. -/
theorem ofDer_roundTrip (hd : 0 < d ∧ d < n) (hl : digest.length = hashLength)
    (h : pair.IsSignature d k (Bytes.toNat digest)) (der : Bytes)
    (hder : der = Der.write pair ∨ der = Der.write pair.opposite) :
    ∃ sig, ofDer der digest (address (Point.mul d generator)) = .ok sig ∧
      sig.s.toNat ≤ n / 2 ∧ (sig.recoveryId = 0 ∨ sig.recoveryId = 1) ∧
      sig.recoverAddress digest = .ok (address (Point.mul d generator)) := by
  have hd0 : (d : ZMod n) ≠ 0 := by
    rw [Ne, ZMod.natCast_eq_zero_iff]
    exact Nat.not_dvd_of_pos_of_lt hd.1 hd.2
  rcases hder with rfl | rfl
  · obtain ⟨id, hid, hof, hrec⟩ := ofDer_write_of_isSignature hl hd0 h
    exact ⟨_, hof, (candidate_numbers pair id).2.2, hid, hrec⟩
  · obtain ⟨id, hid, hof, hrec⟩ := ofDer_write_of_isSignature hl hd0 h.opposite
    exact ⟨_, hof, (candidate_numbers pair.opposite id).2.2, hid, hrec⟩

/-- A signature that is not low: by the secret 3 and the nonce 6, whose point has an odd ordinate,
of the digest with all bytes 42. -/
def highPair : Pair where
  r := 0xfff97bd5755eeea420453a14355235d382f6472f8568a18b2f057a1460297556
  s := 0x8703c4f1c1b67e591729a41121b021f0c8822a9ec9bb57cc9e89c411371bc1b2
  r_pos := by decide
  r_lt := by decide
  s_pos := by decide
  s_lt := by decide

theorem isSignature_highPair : highPair.IsSignature 3 6 (Bytes.toNat (List.replicate 32 42)) := by
  refine Pair.isSignature_iff.2
    ⟨⟨0xae12777aacfbb620f3be96017f45c560de80f0f6518fe4a03c870c36b075f297, by decide +kernel⟩, ?_⟩
  rw [← Nat.cast_mul, ← Nat.cast_mul, ← Nat.cast_add, ZMod.natCast_eq_natCast_iff']
  decide +kernel

theorem ofDer_roundTrip_highPair :
    (0 < 3 ∧ 3 < n) ∧ (List.replicate 32 (42 : UInt8)).length = hashLength ∧
      highPair.IsSignature 3 6 (Bytes.toNat (List.replicate 32 42)) ∧ ¬ highPair.IsLow ∧
      ∃ sig, ofDer (Der.write highPair) (List.replicate 32 42)
          (address (Point.mul 3 generator)) = .ok sig ∧
        sig.s.toNat ≤ n / 2 ∧ (sig.recoveryId = 0 ∨ sig.recoveryId = 1) ∧
        sig.recoverAddress (List.replicate 32 42) = .ok (address (Point.mul 3 generator)) :=
  ⟨by decide, rfl, isSignature_highPair, by decide,
    ofDer_roundTrip (by decide) rfl isSignature_highPair _ (Or.inl rfl)⟩

end CanonicalSignature

end Custody
