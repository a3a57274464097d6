import Custody.Proofs.Ecdsa.Der
/-!
# Loose encodings of pairs

Other encoding rules leave more freedom than the distinguished ones: a length may be written in long
form, with zeros in front of its digits, and a number may be padded with zeros. `Der.Loose` goes
further still and takes in the two faults that a careless encoder makes, a number without the zero
that keeps it from reading as a negative one, and bytes after the end. Of all loose encodings of a
pair only the distinguished one is the distinguished encoding of any pair at all
(`Der.Loose.pair_eq`), so that reading refuses the others.
-/

namespace Custody.Ecdsa.Der

/-- A length in one of its forms: one byte, or the number of digits and the digits, the first of
which may be zeros. -/
inductive LooseLength : (length : Nat) → (text : Bytes) → Prop
  | short {length : Nat} (h : length < 128) : LooseLength length [UInt8.ofNat length]
  | long {digits : Bytes} (h : digits.length < 128) :
    LooseLength (Bytes.toNat digits) (UInt8.ofNat (128 + digits.length) :: digits)

/-- An element whose length is written in any of its forms. -/
def LooseElement (tag : UInt8) (contents text : Bytes) : Prop :=
  ∃ length, LooseLength contents.length length ∧ text = tag :: (length ++ contents)

/-- An INTEGER whose contents are the digits of the number, with as many zeros in front as anyone
likes: too many, or too few for the number not to read as a negative one. -/
def LooseInteger (k : Nat) (text : Bytes) : Prop :=
  ∃ contents, Bytes.toNat contents = k ∧ LooseElement integerTag contents text

/-- A loose encoding of a pair. -/
def Loose (pair : Pair) (text : Bytes) : Prop :=
  ∃ r s sequence trailing, LooseInteger pair.r r ∧ LooseInteger pair.s s ∧
    LooseElement sequenceTag (r ++ s) sequence ∧ text = sequence ++ trailing

theorem toNat_integerContents (k : Nat) : Bytes.toNat (integerContents k) = k := by
  have hdigits := Bytes.toNat_digits k
  rw [integerContents]
  cases hc : Bytes.digits k with
  | nil =>
    rw [hc, Bytes.toNat_nil] at hdigits
    rw [← hdigits]
    rfl
  | cons first rest =>
    rw [hc] at hdigits
    dsimp only
    split
    · exact hdigits
    · rw [Bytes.toNat_cons, hdigits]
      simp

theorem looseElement_write {tag : UInt8} {contents : Bytes} (hl : contents.length < 128) :
    LooseElement tag contents (writeElement tag contents) := by
  refine ⟨[UInt8.ofNat contents.length], .short hl, ?_⟩
  rw [writeElement, writeLength, if_pos hl]
  rfl

/-- The distinguished encoding is one of the loose ones. -/
theorem loose_write (pair : Pair) : Loose pair (write pair) := by
  have hinteger {k : Nat} (hk : k < Bytes.bound 32) :
      LooseInteger k (writeElement integerTag (integerContents k)) :=
    have hl := length_integerContents hk
    ⟨_, toNat_integerContents k, looseElement_write (by omega)⟩
  exact ⟨_, _, _, [], hinteger pair.r_lt_bound, hinteger pair.s_lt_bound,
    looseElement_write (length_writeIntegers pair), (List.append_nil _).symm⟩

/-- A length that starts with a byte below 128 is that byte. -/
theorem LooseLength.eq_of_lt {length : Nat} {text after rest : Bytes} {first : UInt8}
    (h : LooseLength length text) (hfirst : first < 128) (heq : text ++ after = first :: rest) :
    length = first.toNat ∧ after = rest := by
  cases h with
  | short h =>
    obtain ⟨rfl, rfl⟩ := List.cons.inj heq
    refine ⟨?_, rfl⟩
    rw [UInt8.toNat_ofNat']
    omega
  | @long digits h =>
    obtain ⟨rfl, -⟩ := List.cons.inj heq
    rw [UInt8.lt_iff_toNat_lt, UInt8.toNat_ofNat'] at hfirst
    change _ < 128 at hfirst
    omega

/-- **A short element is found where it stands**, whatever follows it: it has no other loose
encoding in the same place. -/
theorem LooseElement.contents_eq {tag : UInt8} {contents text after written rest : Bytes}
    (h : LooseElement tag contents text) (hl : written.length < 128)
    (heq : text ++ after = writeElement tag written ++ rest) :
    contents = written ∧ after = rest := by
  obtain ⟨length, hlength, rfl⟩ := h
  rw [writeElement, writeLength, if_pos hl] at heq
  have hbyte : (UInt8.ofNat written.length).toNat = written.length := by
    rw [UInt8.toNat_ofNat']
    omega
  have hfirst : UInt8.ofNat written.length < 128 := by
    rw [UInt8.lt_iff_toNat_lt, hbyte]
    exact hl
  have htail : length ++ (contents ++ after) =
      UInt8.ofNat written.length :: (written ++ rest) := by
    simpa using heq
  obtain ⟨hsame, happend⟩ := hlength.eq_of_lt hfirst htail
  exact List.append_inj happend (hsame.trans hbyte)

/-- **A loose encoding that is distinguished is that of its own pair.** -/
theorem Loose.pair_eq {pair other : Pair} (h : Loose pair (write other)) : other = pair := by
  obtain ⟨r, s, sequence, trailing, ⟨first, hfirst, hr⟩, ⟨second, hsecond, hs⟩, hsequence, heq⟩ := h
  have hlr := length_integerContents other.r_lt_bound
  have hls := length_integerContents other.s_lt_bound
  have hwhole : sequence ++ trailing = write other ++ [] := by
    rw [← heq, List.append_nil]
  obtain ⟨hcontents, -⟩ := hsequence.contents_eq (length_writeIntegers other) hwhole
  obtain ⟨rfl, hrest⟩ := hr.contents_eq (by omega) hcontents
  rw [← List.append_nil s, ← List.append_nil (writeElement integerTag _)] at hrest
  obtain ⟨rfl, -⟩ := hs.contents_eq (by omega) hrest
  rw [toNat_integerContents] at hfirst hsecond
  exact Pair.ext hfirst hsecond

end Custody.Ecdsa.Der
