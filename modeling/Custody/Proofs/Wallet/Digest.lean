import Custody.Proofs.Text.Hex
import Custody.Wallet.Digest
/-!
# Digests as arguments

A text is read as a digest exactly if it gives 32 bytes in hexadecimal digits, behind any number of
marks (`Digest.exists_ofText_iff`). A digest can be written with any number of marks and each digit
in either case (`Digest.rendering`); these texts, and no others, are read, and each of them as the
digest that it was written for (`Digest.ofText_language`).
-/

namespace Custody

namespace Wallet.Digest

/-- The text gives 32 bytes in hexadecimal digits, with any number of marks in front. -/
def IsDigest (text : String) : Prop :=
  (afterMarks text.toList).length = 2 * hashLength ∧
    ∀ c ∈ afterMarks text.toList, Text.Hex.IsDigit c

-- the test goes through the characters of the text, not through all characters that there are
instance (text : String) : Decidable (IsDigest text) :=
  @instDecidableAnd _ _ _ (List.decidableBAll _ _)

theorem ofText_eq_ok_iff {text : String} {hash : Bytes} :
    ofText text = .ok hash ↔
      Text.Hex.decode (String.ofList (afterMarks text.toList)) = .ok hash ∧
        hash.length = hashLength := by
  unfold ofText
  grind

/-- A text is read as a digest exactly if it gives one. -/
theorem exists_ofText_iff {text : String} : (∃ hash, ofText text = .ok hash) ↔ IsDigest text := by
  simp only [ofText_eq_ok_iff]
  exact Text.Hex.exists_decode_iff

/-! ## Marks -/

/-- What may stand in front of a digest. -/
def mark : List Char :=
  ['0', 'x']

/-- So many marks. -/
def marks (count : Nat) : List Char :=
  (List.replicate count mark).flatten

theorem marks_succ_append (count : Nat) (chars : List Char) :
    marks (count + 1) ++ chars = '0' :: 'x' :: (marks count ++ chars) := by
  simp [marks, mark, List.replicate_succ]

theorem afterMarks_marks_append (count : Nat) (chars : List Char) :
    afterMarks (marks count ++ chars) = afterMarks chars := by
  induction count with
  | zero => rfl
  | succ count ih => rw [marks_succ_append, afterMarks, ih]

/-- What does not start with a mark stays as it is. -/
theorem afterMarks_of_not_prefix {chars : List Char} (h : ¬ mark <+: chars) :
    afterMarks chars = chars := by
  unfold afterMarks
  split
  · next rest => exact absurd (List.prefix_append mark rest) h
  · rfl

/-- Digits do not start with a mark. -/
theorem not_prefix_of_isDigit {digits : List Char} (h : ∀ c ∈ digits, Text.Hex.IsDigit c) :
    ¬ mark <+: digits := by
  intro hmark
  have hx : 'x' ∈ digits := hmark.subset (by decide)
  exact absurd (h 'x' hx) (by decide)

/-- Every text has some marks and then what is left without them. -/
theorem exists_marks_append (chars : List Char) :
    ∃ count, chars = marks count ++ afterMarks chars := by
  fun_induction afterMarks chars with
  | case1 rest ih =>
    obtain ⟨count, hrest⟩ := ih
    exact ⟨count + 1, by rw [marks_succ_append, ← hrest]⟩
  | case2 chars => exact ⟨0, rfl⟩

/-! ## The texts of a digest -/

/-- The text is any number of marks and then two hexadecimal digits of either case for each byte of
the digest, which stand for its number. -/
def IsTextOf (text : String) (hash : Bytes) : Prop :=
  ∃ count digits, text = String.ofList (marks count ++ digits) ∧
    digits.length = 2 * hashLength ∧ (∀ c ∈ digits, Text.Hex.IsDigit c) ∧
      hash.length = hashLength ∧ Bytes.toNat hash = Text.Hex.numeral digits

theorem ofText_marks_append {count : Nat} {digits : List Char} (h : ¬ mark <+: digits)
    {hash : Bytes} :
    ofText (String.ofList (marks count ++ digits)) = .ok hash ↔
      Text.Hex.decode (String.ofList digits) = .ok hash ∧ hash.length = hashLength := by
  rw [ofText_eq_ok_iff, String.toList_ofList, afterMarks_marks_append, afterMarks_of_not_prefix h]

/-- **A text is read as the digest that it is a text of**, and as no other. -/
theorem ofText_eq_ok_iff_isTextOf {text : String} {hash : Bytes} :
    ofText text = .ok hash ↔ IsTextOf text hash := by
  constructor
  · intro h
    obtain ⟨hdecode, hlength⟩ := ofText_eq_ok_iff.1 h
    obtain ⟨hmany, hdigits, hnumber⟩ := Text.Hex.decode_eq_ok_iff_numeral.1 hdecode
    obtain ⟨count, hchars⟩ := exists_marks_append text.toList
    refine ⟨count, afterMarks text.toList, ?_, hlength ▸ hmany, hdigits, hlength, hnumber⟩
    rw [← hchars, String.ofList_toList]
  · rintro ⟨count, digits, rfl, hmany, hdigits, hlength, hnumber⟩
    rw [ofText_marks_append (not_prefix_of_isDigit hdigits)]
    exact ⟨Text.Hex.decode_eq_ok_iff_numeral.2 ⟨by rw [hmany, hlength], hdigits, hnumber⟩, hlength⟩

/-! ## Writing digests -/

/-- A character as a capital, if so wished. -/
def inCase (capital : Bool) (c : Char) : Char :=
  if capital then c.toUpper else c

/-- A digest with so many marks in front, in which some digits are capitals. -/
def rendering (count : Nat) (isCapital : Nat → Bool) (hash : Bytes32) : String :=
  String.ofList (marks count ++
    (Text.Hex.encodeChars hash.val).mapIdx fun i c => inCase (isCapital i) c)

/-- A digit stays a digit in either case, and the same one. -/
theorem inCase_of_lowerDigits {c : Char} (h : c ∈ Text.Hex.lowerDigits) (capital : Bool) :
    Text.Hex.IsDigit (inCase capital c) ∧ (inCase capital c).toLower = c := by
  have hall : Text.Hex.lowerDigits.all (fun c => decide (∀ capital,
      Text.Hex.IsDigit (inCase capital c) ∧ (inCase capital c).toLower = c)) = true := by
    decide
  exact of_decide_eq_true (List.all_eq_true.1 hall c h) capital

theorem inCase_toLower {c : Char} (h : Text.Hex.IsDigit c) : inCase c.isUpper c.toLower = c := by
  have hall : ∀ k < 128, Text.Hex.IsDigit (Char.ofNat k) →
      inCase (Char.ofNat k).isUpper (Char.ofNat k).toLower = Char.ofNat k := by
    decide +kernel
  have hc := hall c.toNat (Text.Hex.toNat_lt_of_isDigit h)
  rw [Char.ofNat_toNat] at hc
  exact hc h

/-- **What is written for a digest is read as that digest.** -/
theorem ofText_rendering (count : Nat) (isCapital : Nat → Bool) (hash : Bytes32) :
    ofText (rendering count isCapital hash) = .ok hash.val := by
  have hdigits : ∀ c ∈ (Text.Hex.encodeChars hash.val).mapIdx fun i c => inCase (isCapital i) c,
      Text.Hex.IsDigit c := by
    intro c hc
    obtain ⟨i, hi, rfl⟩ := List.mem_mapIdx.1 hc
    exact (inCase_of_lowerDigits (Text.Hex.mem_lowerDigits (List.getElem_mem hi)) _).1
  rw [rendering, ofText_marks_append (not_prefix_of_isDigit hdigits), Text.Hex.decode_eq_ok_iff]
  refine ⟨⟨hdigits, List.ext_getElem (by simp) fun i hi hi' => ?_⟩, hash.property⟩
  rw [List.getElem_map, List.getElem_mapIdx]
  exact (inCase_of_lowerDigits (Text.Hex.mem_lowerDigits (List.getElem_mem hi)) _).2.symm

/-- **What is read has been written for a digest.** -/
theorem exists_rendering_of_ofText {text : String} {hash : Bytes} (h : ofText text = .ok hash) :
    ∃ hlength count isCapital, text = rendering count isCapital ⟨hash, hlength⟩ := by
  obtain ⟨hdecode, hlength⟩ := ofText_eq_ok_iff.1 h
  obtain ⟨hdigits, hlower⟩ := Text.Hex.decode_eq_ok_iff.1 hdecode
  obtain ⟨count, hchars⟩ := exists_marks_append text.toList
  -- the capitals are where the text has them
  let isCapital (i : Nat) : Bool := ((afterMarks text.toList)[i]?.map Char.isUpper).getD false
  have hcase : ((afterMarks text.toList).map Char.toLower).mapIdx
      (fun i c => inCase (isCapital i) c) = afterMarks text.toList := by
    refine List.ext_getElem (by simp) fun i hi hi' => ?_
    simp only [isCapital, List.getElem_mapIdx, List.getElem_map, List.getElem?_eq_getElem hi',
      Option.map_some, Option.getD_some]
    exact inCase_toLower (hdigits _ (List.getElem_mem hi'))
  refine ⟨hlength, count, isCapital, ?_⟩
  rw [rendering, hlower, hcase, ← hchars, String.ofList_toList]

/-- **The language of digests.** A text is read as a digest exactly if it is any number of marks and
then 64 hexadecimal digits of either case that stand for the number of the digest. So what is
written for a digest, with any number of marks and in any case, is read as that digest; there are no
other texts that are read; and two digests have no text in common. Where behind the marks a digit is
missing or one too many, or where some character is no digit, nothing is read. -/
theorem ofText_language :
    (∀ text hash, ofText text = .ok hash ↔ IsTextOf text hash) ∧
    (∀ count isCapital hash, ofText (rendering count isCapital hash) = .ok hash.val) ∧
    (∀ text hash, ofText text = .ok hash →
      ∃ hlength count isCapital, text = rendering count isCapital ⟨hash, hlength⟩) ∧
    (∀ count isCapital hash count' isCapital' other,
      rendering count isCapital hash = rendering count' isCapital' other → hash = other) ∧
    ∀ count chars, ¬ mark <+: chars →
      chars.length ≠ 2 * hashLength ∨ (∃ c ∈ chars, ¬ Text.Hex.IsDigit c) →
        ∃ fault, ofText (String.ofList (marks count ++ chars)) = .error fault := by
  refine ⟨fun _ _ => ofText_eq_ok_iff_isTextOf, ofText_rendering,
    fun _ _ => exists_rendering_of_ofText, fun count isCapital hash count' isCapital' other h => ?_,
    fun count chars hmark hbad => ?_⟩
  · have hread := ofText_rendering count isCapital hash
    rw [h, ofText_rendering] at hread
    exact Subtype.ext (Except.ok.inj hread).symm
  · cases hread : ofText (String.ofList (marks count ++ chars)) with
    | error fault => exact ⟨fault, rfl⟩
    | ok hash =>
      obtain ⟨hdecode, hlength⟩ := (ofText_marks_append hmark).1 hread
      obtain ⟨hmany, hdigits, -⟩ := Text.Hex.decode_eq_ok_iff_numeral.1 hdecode
      rcases hbad with hshort | ⟨c, hc, hstray⟩
      · exact absurd (hlength ▸ hmany) hshort
      · exact absurd (hdigits c hc) hstray

/-- Two marks, and digits of both cases. -/
theorem ofText_language_of_two_marks :
    ofText "0x0xaBaBaBaBaBaBaBaBaBaBaBaBaBaBaBaBaBaBaBaBaBaBaBaBaBaBaBaBaBaBaBaB" =
      .ok (List.replicate 32 0xab) :=
  (ofText_language.1 _ _).2 ⟨2, (List.replicate 32 ['a', 'B']).flatten, by decide +kernel,
    by decide, by simp [Text.Hex.IsDigit], by decide, by decide +kernel⟩

end Wallet.Digest

end Custody
