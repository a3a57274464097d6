import Custody.Proofs.Ecdsa.Loose
import Custody.Proofs.Json.RoundTrip
import Custody.Proofs.Signature.RoundTrip
import Custody.Proofs.Text.Hex
/-!
# Two pairs, one signature

Whoever sees a signature can replace `s` by its negative and has another pair that is as good. A
pair and its opposite are different and one of them is low (`Ecdsa.Pair.isLow_opposite_iff`), and
the low forms of two pairs agree only if the pairs are the same or opposite
(`Ecdsa.Pair.lowS_eq_iff`).

* `CanonicalSignature.malleability`: `CanonicalSignature.ofDer` makes one signature of both, and of
  nothing else.
* `CanonicalSignature.fit_of_recoverAddress`: a signature that recovers to an address is low, and
  its twin with the other `s` never does.
-/

namespace Custody

open Ecdsa Secp256k1

/-! ## A pair and its opposite -/

namespace Ecdsa

namespace Pair

theorem opposite_r (pair : Pair) : pair.opposite.r = pair.r :=
  rfl

theorem opposite_s (pair : Pair) : pair.opposite.s = n - pair.s :=
  rfl

theorem opposite_opposite (pair : Pair) : pair.opposite.opposite = pair :=
  Pair.ext rfl (Nat.sub_sub_self pair.s_lt.le)

/-- The group order is odd, so that no number is its own negative. -/
theorem opposite_ne (pair : Pair) : pair.opposite ≠ pair := by
  intro h
  have hn := n_odd
  have hs : n - pair.s = pair.s := congrArg Pair.s h
  omega

/-- **Of a pair and its opposite one is low.** -/
theorem isLow_opposite_iff {pair : Pair} : pair.opposite.IsLow ↔ ¬ pair.IsLow := by
  have hn := n_odd
  have hs := pair.s_lt
  change n - pair.s ≤ n / 2 ↔ ¬ pair.s ≤ n / 2
  omega

theorem lowS_of_isLow {pair : Pair} (h : pair.IsLow) : pair.lowS = pair :=
  if_pos h

theorem lowS_opposite (pair : Pair) : pair.opposite.lowS = pair.lowS := by
  by_cases h : pair.IsLow
  · rw [lowS_of_isLow h, lowS, if_neg (mt isLow_opposite_iff.1 (not_not.2 h)), opposite_opposite]
  · rw [lowS_of_isLow (isLow_opposite_iff.2 h), lowS, if_neg h]

/-- **The pairs with one low form** are that and its opposite. -/
theorem lowS_eq_iff {pair low : Pair} (hlow : low.IsLow) :
    pair.lowS = low ↔ pair = low ∨ pair = low.opposite := by
  constructor
  · rintro rfl
    unfold lowS
    split
    · exact .inl rfl
    · exact .inr pair.opposite_opposite.symm
  · rintro (rfl | rfl)
    · exact lowS_of_isLow hlow
    · rw [lowS_opposite, lowS_of_isLow hlow]

end Pair

theorem Der.write_injective {a b : Pair} (h : write a = write b) : a = b :=
  Option.some.inj ((read?_eq_some_iff.2 rfl).symm.trans (read?_eq_some_iff.2 h))

/-- A key is recovered from a low pair only, and from half a digest at least. -/
theorem isLow_of_recover? {digest : Bytes} {pair : Pair} {id : RecoveryId} {key : Point}
    (h : recover? digest pair id = some key) : 16 ≤ digest.length ∧ pair.IsLow := by
  obtain ⟨z, hz, h⟩ := Option.bind_eq_some_iff.1 h
  obtain ⟨nonce, -, h⟩ := Option.bind_eq_some_iff.1 h
  constructor
  · rw [← Nat.not_lt]
    intro hshort
    rw [digestNumber?, if_pos hshort] at hz
    cases hz
  · dsimp only at h
    split at h
    · next hkey => exact hkey.2.1
    · cases h

end Ecdsa

/-! ## Texts of addresses -/

theorem Keccak.length_digest (message : Bytes) : (digest message).length = 32 := by
  simp [digest, laneBytes]

/-- The text is `0x` and forty digits, none of which is a capital. -/
def IsAddress (text : String) : Prop :=
  ∃ digits : List Char, text = "0x" ++ String.ofList digits ∧ digits.length = 40 ∧
    ∀ c ∈ digits, c ∈ Text.Hex.lowerDigits

theorem isAddress_address (key : Point) : IsAddress (address key) := by
  refine ⟨Text.Hex.encodeChars ((Keccak.digest key.coordinates).drop 12), rfl, ?_, ?_⟩
  · rw [Text.Hex.length_encodeChars, List.length_drop, Keccak.length_digest]
  · exact fun c => Text.Hex.mem_lowerDigits

namespace CanonicalSignature

variable {digest : Bytes} {expected : String}

/-- What becomes of an encoded pair depends on its low form alone. -/
theorem ofDer_write_congr {a b : Pair} (h : a.lowS = b.lowS) (digest : Bytes)
    (expected : String) :
    ofDer (Der.write a) digest expected = ofDer (Der.write b) digest expected := by
  simp only [ofDer, Der.read?_eq_some_iff.2 rfl, h]

/-- A signature is made of an encoded pair, and has the numbers of its low form. -/
theorem exists_pair_of_ofDer {der : Bytes} {sig : CanonicalSignature}
    (h : ofDer der digest expected = .ok sig) :
    ∃ pair : Pair, der = Der.write pair ∧ sig.r.toNat = pair.lowS.r ∧
      sig.s.toNat = pair.lowS.s := by
  have hl : digest.length = hashLength := by
    by_contra hl
    have hmalformed : ∃ reason, ofDer der digest expected = .error (.malformedSignature reason) :=
      ofDer_malformed expected (.inl hl)
    obtain ⟨reason, he⟩ := hmalformed
    rw [he] at h
    cases h
  cases hread : Der.read? der with
  | none =>
    rw [ofDer, if_neg (not_not.2 hl), hread] at h
    cases h
  | some pair =>
    obtain rfl := Der.read?_eq_some_iff.1 hread
    obtain ⟨id, -, -, -, rfl⟩ := (ofDer_write_eq_ok_iff hl pair expected sig).1 h
    obtain ⟨hr, hs, -⟩ := candidate_numbers pair id
    exact ⟨pair, rfl, hr.trans pair.lowS_r.symm, hs.trans pair.lowS_s.symm⟩

/-- **Two encodings, one signature.** The encodings of a pair and of its opposite come to the same:
the same signature or the same error. A byte string that is made into a signature is the encoding of
the low pair with the numbers of the signature, or of the opposite pair. These two are different,
and of all byte strings just they are made into a signature with these numbers. A loose encoding of
a pair, with padded numbers, numbers that read as negative ones, long lengths or bytes after the
end, is refused unless it is the distinguished one. -/
theorem malleability (digest : Bytes) (expected : String) :
    (∀ pair : Pair, ofDer (Der.write pair.opposite) digest expected =
      ofDer (Der.write pair) digest expected) ∧
    (∀ der sig, ofDer der digest expected = .ok sig →
      ∃ pair : Pair, pair.r = sig.r.toNat ∧ pair.s = sig.s.toNat ∧ pair.IsLow ∧
        Der.write pair ≠ Der.write pair.opposite ∧
        ∀ other, (∃ twin, ofDer other digest expected = .ok twin ∧ twin.r = sig.r ∧
            twin.s = sig.s) ↔ other = Der.write pair ∨ other = Der.write pair.opposite) ∧
    ∀ pair other, Der.Loose pair other → other ≠ Der.write pair →
      ∃ reason, ofDer other digest expected = .error (.malformedSignature reason) := by
  refine ⟨fun pair => ofDer_write_congr pair.lowS_opposite digest expected, ?_, ?_⟩
  · intro der sig h
    obtain ⟨made, rfl, hr, hs⟩ := exists_pair_of_ofDer h
    have hlow := made.isLow_lowS
    refine ⟨made.lowS, hr.symm, hs.symm, hlow,
      fun heq => made.lowS.opposite_ne (Der.write_injective heq).symm, fun other => ?_⟩
    constructor
    · rintro ⟨twin, htwin, hsame⟩
      obtain ⟨pair, rfl, hr', hs'⟩ := exists_pair_of_ofDer htwin
      have hpair : pair.lowS = made.lowS :=
        Pair.ext (by rw [← hr', ← hr, hsame.1]) (by rw [← hs', ← hs, hsame.2])
      exact ((Pair.lowS_eq_iff hlow).1 hpair).imp (congrArg Der.write) (congrArg Der.write)
    · intro hother
      obtain ⟨pair, rfl, hpair⟩ : ∃ pair, other = Der.write pair ∧ pair.lowS = made.lowS := by
        rcases hother with rfl | rfl
        · exact ⟨_, rfl, (Pair.lowS_eq_iff hlow).2 (.inl rfl)⟩
        · exact ⟨_, rfl, (Pair.lowS_eq_iff hlow).2 (.inr rfl)⟩
      exact ⟨sig, (ofDer_write_congr hpair digest expected).trans h, rfl, rfl⟩
  · intro pair other hloose hne
    refine ofDer_malformed expected (.inr ?_)
    rintro q rfl
    exact hne (congrArg Der.write hloose.pair_eq)

theorem three_ne_zero : ((3 : Nat) : ZMod n) ≠ 0 := by
  rw [Ne, ZMod.natCast_eq_zero_iff]
  exact Nat.not_dvd_of_pos_of_lt (by decide) (by decide)

/-- Both encodings of the numbers of a signature that is not low, and no third byte string. -/
theorem malleability_highPair :
    ∃ sig, ofDer (Der.write highPair) (List.replicate 32 42) (address (Point.mul 3 generator)) =
        .ok sig ∧
      ofDer (Der.write highPair.opposite) (List.replicate 32 42)
        (address (Point.mul 3 generator)) = .ok sig ∧
      ∀ other, (∃ twin, ofDer other (List.replicate 32 42) (address (Point.mul 3 generator)) =
          .ok twin ∧ twin.r = sig.r ∧ twin.s = sig.s) →
        other = Der.write highPair ∨ other = Der.write highPair.opposite := by
  obtain ⟨id, -, hof, -⟩ := ofDer_write_of_isSignature rfl three_ne_zero isSignature_highPair
  obtain ⟨hsame, hmade, -⟩ := malleability (List.replicate 32 42) (address (Point.mul 3 generator))
  obtain ⟨pair, -, -, hlow, -, hothers⟩ := hmade _ _ hof
  refine ⟨_, hof, (hsame highPair).trans hof, fun other hother => ?_⟩
  -- the low pair is the opposite of the high one
  have hpair : highPair = pair.opposite := by
    rcases (hothers _).1 ⟨_, hof, rfl, rfl⟩ with h | h
    · exact absurd (Der.write_injective h ▸ hlow) (by decide)
    · exact Der.write_injective h
  rw [hpair, Pair.opposite_opposite]
  exact ((hothers other).1 hother).symm

/-! ## Wire form -/

section

open Json

theorem byte?_tree (x : UInt8) : byte? (Value.nat x.toNat).tree = some x := by
  simp [byte?, Value.nat, Value.tree, Tree.natBelow?, toNat?_ofNat, x.toNat_lt]

theorem word?_tree (w : Bytes32) :
    word? (Value.array (w.val.map fun x => .nat x.toNat)).tree = some w := by
  have hitems : Tree.all? byte? (Value.trees (w.val.map fun x => .nat x.toNat)) = some w.val := by
    induction w.val with
    | nil => rfl
    | cons x rest ih => simp only [List.map_cons, Value.trees, Tree.all?, byte?_tree, ih]
  rw [word?, Value.tree, Tree.array?, hitems, Option.bind_some, Bytes32.ofBytes?,
    dif_pos w.property]

theorem plain_toValue (sig : CanonicalSignature) (depth : Nat) :
    Plain (depth + 2) sig.toValue := by
  have hbyte {depth : Nat} (x : UInt8) : Plain depth (.nat x.toNat) :=
    .nat (x.toNat_lt.trans (by decide))
  have hword {depth : Nat} (w : Bytes32) :
      Plain (depth + 1) (.array (w.val.map fun x => .nat x.toNat)) := by
    refine .array fun item hitem => ?_
    obtain ⟨x, -, rfl⟩ := List.mem_map.1 hitem
    exact hbyte x
  refine .object fun member hmember => ?_
  simp only [List.mem_cons, List.not_mem_nil, or_false] at hmember
  rcases hmember with rfl | rfl | rfl
  · exact hword sig.r
  · exact hword sig.s
  · exact hbyte sig.recoveryId

theorem ofTree_tree (sig : CanonicalSignature) : ofTree sig.toValue.tree = .ok sig := by
  have hr := word?_tree sig.r
  have hs := word?_tree sig.s
  have hid := byte?_tree sig.recoveryId
  have hrecord : sig.toValue.tree.record fields =
      .ok [("recovery_id", (Value.nat sig.recoveryId.toNat).tree),
        ("s", (Value.array (sig.s.val.map fun x => .nat x.toNat)).tree),
        ("r", (Value.array (sig.r.val.map fun x => .nat x.toNat)).tree)] := by
    change Tree.ofMembers fields [] [(some "r", _), (some "s", _), (some "recovery_id", _)] = _
    rw [Tree.ofMembers_cons rfl rfl (Option.isSome_of_eq_some hr),
      Tree.ofMembers_cons rfl rfl (Option.isSome_of_eq_some hs),
      Tree.ofMembers_cons rfl rfl (Option.isSome_of_eq_some hid)]
    rfl
  rw [ofTree, hrecord]
  simp [Tree.Fields.get?, List.lookup_cons, hr, hs, hid, bind, Except.bind, pure, Except.pure]

/-- **Any signature can be read**, whatever its numbers and its recovery id are: what is written for
it gives it back, and nothing is checked. -/
theorem ofTree_ofText_render (sig : CanonicalSignature) :
    ofTree (.ofText sig.toValue.render) = .ok sig := by
  rw [ofText_render (sig.plain_toValue 0), ofTree_tree]

end

/-! ## Signatures that recover -/

/-- The signature with the negative of `s` and another recovery id. -/
def twin (sig : CanonicalSignature) (id : UInt8) : CanonicalSignature where
  r := sig.r
  s := .ofNat (n - sig.s.toNat)
  recoveryId := id

theorem twin_r (sig : CanonicalSignature) (id : UInt8) : (sig.twin id).r = sig.r := by
  simp only [twin]

theorem toNat_s_twin (sig : CanonicalSignature) (id : UInt8) :
    (sig.twin id).s.toNat = n - sig.s.toNat :=
  Bytes32.toNat_ofNat (Nat.lt_of_le_of_lt (Nat.sub_le _ _) n_lt_bound)

/-- A signature that recovers to an address is one of a low pair. -/
theorem exists_pair_of_recoverAddress {sig : CanonicalSignature} {digest : Bytes} {found : String}
    (h : sig.recoverAddress digest = .ok found) :
    ∃ pair : Pair, pair.r = sig.r.toNat ∧ pair.s = sig.s.toNat ∧ pair.IsLow := by
  obtain ⟨pair, id, key, hpair, -, hkey, -⟩ := recoverAddress_eq_ok_iff.1 h
  obtain ⟨hr, hs⟩ := Pair.ofNat?_eq_some_iff.1 hpair
  exact ⟨pair, hr, hs, (isLow_of_recover? hkey).2⟩

/-- What a signature recovers to is an address, by a recovery id that there is and half a digest at
least. -/
theorem isAddress_of_recoverAddress {sig : CanonicalSignature} {digest : Bytes} {found : String}
    (h : sig.recoverAddress digest = .ok found) :
    sig.recoveryId ≤ 3 ∧ 16 ≤ digest.length ∧ IsAddress found := by
  obtain ⟨pair, id, key, -, hid, hkey, rfl⟩ := recoverAddress_eq_ok_iff.1 h
  refine ⟨?_, (isLow_of_recover? hkey).1, isAddress_address key⟩
  unfold RecoveryId.ofByte? at hid
  split at hid
  · next hlt => exact UInt8.le_iff_toNat_le.2 (Nat.le_of_lt_succ hlt)
  · cases hid

/-- **A signature that recovers to an address is low.** Its numbers are in range and `s` is at most
half the group order, its recovery id is at most three, the digest has at least sixteen bytes, and
what is recovered is the text of an address. The twin of such a signature can be written down and
read like any other, but recovers to nothing, whatever its recovery id and the digest are. -/
theorem fit_of_recoverAddress {sig : CanonicalSignature} {digest : Bytes} {found : String}
    (h : sig.recoverAddress digest = .ok found) :
    (0 < sig.r.toNat ∧ sig.r.toNat < n) ∧ (0 < sig.s.toNat ∧ sig.s.toNat ≤ n / 2) ∧
      sig.recoveryId ≤ 3 ∧ 16 ≤ digest.length ∧ IsAddress found ∧
      ∀ id, ofTree (.ofText (sig.twin id).toValue.render) = .ok (sig.twin id) ∧
        (sig.twin id).s.toNat = n - sig.s.toNat ∧
        ∀ other, ∃ e, (sig.twin id).recoverAddress other = .error e := by
  obtain ⟨pair, hr, hs, hlow⟩ := exists_pair_of_recoverAddress h
  obtain ⟨hid, hdigest, haddress⟩ := isAddress_of_recoverAddress h
  refine ⟨hr ▸ ⟨pair.r_pos, pair.r_lt⟩, hs ▸ ⟨pair.s_pos, hlow⟩, hid, hdigest, haddress,
    fun id => ⟨ofTree_ofText_render _, toNat_s_twin sig id, fun other => ?_⟩⟩
  cases htwin : (sig.twin id).recoverAddress other with
  | error e => exact ⟨e, rfl⟩
  | ok address =>
    -- the pair of the twin is the opposite one, and of the two only one is low
    obtain ⟨counter, hr', hs', hlow'⟩ := exists_pair_of_recoverAddress htwin
    have hcounter : counter = pair.opposite :=
      Pair.ext (by rw [hr', twin_r, ← hr, Pair.opposite_r])
        (by rw [hs', toNat_s_twin, ← hs, Pair.opposite_s])
    exact absurd hlow (Pair.isLow_opposite_iff.1 (hcounter ▸ hlow'))

/-- A digest of 32 bytes and the signature that a secret has made of it. -/
theorem fit_of_recoverAddress_highPair :
    ∃ (sig : CanonicalSignature) (found : String),
      sig.recoverAddress (List.replicate 32 42) = .ok found ∧
      sig.r.toNat = highPair.r ∧ sig.s.toNat = n - highPair.s ∧ sig.s.toNat ≤ n / 2 ∧
      IsAddress found ∧
      ∀ id other, ∃ e, (sig.twin id).recoverAddress other = .error e := by
  obtain ⟨id, -, -, hrec⟩ := ofDer_write_of_isSignature rfl three_ne_zero isSignature_highPair
  obtain ⟨hr, hs, -⟩ := candidate_numbers highPair id
  obtain ⟨-, ⟨-, hlow⟩, -, -, haddress, htwin⟩ := fit_of_recoverAddress hrec
  exact ⟨_, _, hrec, hr, hs.trans (by decide), hlow, haddress, fun id => (htwin id).2.2⟩

end CanonicalSignature

end Custody
