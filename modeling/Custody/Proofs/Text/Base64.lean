import Custody.Proofs.Text.Ascii
import Custody.Text.Base64
/-!
# Reading Base64 back

What is written is read back as it was (`decode_encode`): the symbols of a byte string carry its
bytes and no spare bits (`bytesOf_sextets`, `spareBits_sextets`), and the reader takes them off
the text whatever blocks they fall into (`decodeBytes_written`). Nothing else is read
(`decode_eq_ok_iff`): a text that is not refused consists of symbols and padding
(`written_of_decodeBytes`), and symbols without spare bits are those of the bytes that they carry
(`sextets_bytesOf`).
-/

namespace Custody.Text.Base64

/-! ## What is written -/

/-- The numbers below 64 that a byte string is written with. -/
def sextets : Bytes → List Nat
  | [] => []
  | [a] => [a.toNat * 16 / 64, a.toNat * 16 % 64]
  | [a, b] =>
    let w := (a.toNat * 256 + b.toNat) * 4
    [w / 4096, w / 64 % 64, w % 64]
  | a :: b :: c :: rest =>
    let w := (a.toNat * 256 + b.toNat) * 256 + c.toNat
    w / 262144 :: w / 4096 % 64 :: w / 64 % 64 :: w % 64 :: sextets rest

/-- How many padding characters follow the symbols of a byte string. -/
def pads (b : Bytes) : Nat :=
  (3 - b.length % 3) % 3

theorem pads_append_three (a b c : UInt8) (rest : Bytes) :
    pads (a :: b :: c :: rest) = pads rest := by
  simp only [pads, List.length_cons]
  omega

theorem encodeChars_eq (b : Bytes) :
    encodeChars b = (sextets b).map symbol ++ List.replicate (pads b) '=' := by
  fun_induction encodeChars b with
  | case1 => rfl
  | case2 a => rfl
  | case3 a b => rfl
  | case4 a b c rest w ih =>
    rw [pads_append_three, ih]
    rfl

theorem lt_of_mem_sextets {b : Bytes} {k : Nat} (h : k ∈ sextets b) : k < 64 := by
  fun_induction sextets b with
  | case1 => simp at h
  | case2 a =>
    have := a.toNat_lt
    simp only [List.mem_cons, List.not_mem_nil, or_false] at h
    omega
  | case3 a b w =>
    have := a.toNat_lt
    have := b.toNat_lt
    simp only [List.mem_cons, List.not_mem_nil, or_false] at h
    omega
  | case4 a b c rest w ih =>
    have := a.toNat_lt
    have := b.toNat_lt
    have := c.toNat_lt
    simp only [List.mem_cons] at h
    rcases h with h | h | h | h | h
    · omega
    · omega
    · omega
    · omega
    · exact ih h

theorem length_sextets (b : Bytes) : ((sextets b).length + pads b) % 4 = 0 := by
  fun_induction sextets b with
  | case1 => rfl
  | case2 a => simp [pads]
  | case3 a b w => simp [pads]
  | case4 a b c rest w ih =>
    simp only [List.length_cons, pads_append_three]
    omega

/-- The symbols of a byte string carry its bytes. -/
theorem bytesOf_sextets (b : Bytes) : bytesOf (sextets b) = b := by
  have byte (x : UInt8) (k : Nat) (h : k % 256 = x.toNat) : UInt8.ofNat k = x := by
    apply UInt8.toNat_inj.1
    rw [UInt8.toNat_ofNat', h]
  fun_induction sextets b with
  | case1 => rfl
  | case2 a =>
    have := a.toNat_lt
    simp only [bytesOf, List.cons.injEq, and_true]
    exact byte a _ (by omega)
  | case3 a b w =>
    have := a.toNat_lt
    have := b.toNat_lt
    simp only [bytesOf, List.cons.injEq, and_true]
    exact ⟨byte a _ (by omega), byte b _ (by omega)⟩
  | case4 a b c rest w ih =>
    have := a.toNat_lt
    have := b.toNat_lt
    have := c.toNat_lt
    simp only [bytesOf, List.cons.injEq]
    exact ⟨byte a _ (by omega), byte b _ (by omega), byte c _ (by omega), ih⟩

theorem spareBits_append_four (syms : List Nat) (a b c d : Nat) :
    spareBits (a :: b :: c :: d :: syms) = spareBits syms := by
  have hlength : (a :: b :: c :: d :: syms).length % 4 = syms.length % 4 := by
    simp only [List.length_cons]
    omega
  rw [spareBits, spareBits, hlength]
  cases syms with
  | nil => rfl
  | cons e rest => simp only [List.getLastD_cons]

/-- The spare bits of the last symbol are zero. -/
theorem spareBits_sextets (b : Bytes) : spareBits (sextets b) = 0 := by
  fun_induction sextets b with
  | case1 => rfl
  | case2 a =>
    simp only [spareBits, List.length_cons, List.length_nil, List.getLastD_cons, List.getLastD_nil]
    omega
  | case3 a b w =>
    simp only [spareBits, List.length_cons, List.length_nil, List.getLastD_cons, List.getLastD_nil]
    omega
  | case4 a b c rest w ih => rw [spareBits_append_four, ih]

/-! ## What is read -/

/-- The byte of a symbol. -/
def symbolByte (k : Nat) : UInt8 :=
  UInt8.ofNat (symbol k).toNat

theorem value?_symbolByte {k : Nat} (h : k < 64) : value? (symbolByte k) = some k := by
  have all : ∀ k < 64, value? (symbolByte k) = some k := by decide
  exact all k h

theorem symbolByte_ne_padding {k : Nat} (h : k < 64) : symbolByte k ≠ padding := by
  have all : ∀ k < 64, symbolByte k ≠ padding := by decide
  exact all k h

theorem symbols_map_symbolByte (offset : Nat) (syms : List Nat) (h : ∀ k ∈ syms, k < 64) :
    symbols offset (syms.map symbolByte) = .ok syms := by
  induction syms generalizing offset with
  | nil => rfl
  | cons k rest ih =>
    have hk := value?_symbolByte (h k List.mem_cons_self)
    have hrest := ih (offset + 1) fun j hj => h j (List.mem_cons_of_mem k hj)
    rw [List.map_cons, symbols, hk]
    simp only [hrest]
    rfl

/-- Up to two padding characters at the end of a group of four are counted. -/
theorem lastBlock_padding (start index : Nat) {p : Nat} (hp : p ≤ 2)
    (h : (index + p) % 4 = 0) :
    lastBlock start index none (List.replicate p padding) = .ok ⟨[], p⟩ := by
  have hsmall : p = 0 ∨ p = 1 ∨ p = 2 := by omega
  rcases hsmall with rfl | rfl | rfl
  · rfl
  · have hindex : ¬ index % 4 < 2 := by omega
    simp [lastBlock, hindex, List.replicate, Functor.map, Except.map]
  · have hindex : ¬ index % 4 < 2 := by omega
    have hnext : ¬ (index + 1) % 4 < 2 := by omega
    simp [lastBlock, hindex, hnext, List.replicate, Functor.map, Except.map]

theorem lastBlock_written (start index : Nat) (syms : List Nat) {p : Nat}
    (hsyms : ∀ k ∈ syms, k < 64) (hp : p ≤ 2) (h : (index + syms.length + p) % 4 = 0) :
    lastBlock start index none (syms.map symbolByte ++ List.replicate p padding) =
      .ok ⟨syms, p⟩ := by
  induction syms generalizing index with
  | nil => exact lastBlock_padding start index hp (by simpa using h)
  | cons k rest ih =>
    have hk := hsyms k List.mem_cons_self
    have hrest := ih (index + 1) (fun j hj => hsyms j (List.mem_cons_of_mem k hj)) (by
      simp only [List.length_cons] at h
      omega)
    rw [List.map_cons, List.cons_append, lastBlock, if_neg (symbolByte_ne_padding hk)]
    simp only [value?_symbolByte hk, hrest]
    rfl

/-- Symbols without spare bits, padded to groups of four, are read as the bytes that they carry. -/
theorem decodeBytes_written {syms : List Nat} {p : Nat} (hsyms : ∀ k ∈ syms, k < 64)
    (hp : p ≤ 2) (hlength : (syms.length + p) % 4 = 0) (hspare : spareBits syms = 0) :
    decodeBytes (syms.map symbolByte ++ List.replicate p padding) = .ok (bytesOf syms) := by
  have htext : (syms.map symbolByte ++ List.replicate p padding).length = syms.length + p := by
    simp
  rw [decodeBytes, htext, if_neg (by omega)]
  generalize hstart : (syms.length + p - 1) / 8 * 8 = start
  -- the padding lies in the last block
  have hle : start ≤ syms.length := by omega
  have hfront : (syms.map symbolByte ++ List.replicate p padding).take start =
      (syms.take start).map symbolByte := by
    rw [List.take_append_of_le_length (by simpa using hle), List.map_take]
  have hback : (syms.map symbolByte ++ List.replicate p padding).drop start =
      (syms.drop start).map symbolByte ++ List.replicate p padding := by
    rw [List.drop_append_of_le_length (by simpa using hle), List.map_drop]
  have hread := symbols_map_symbolByte 0 (syms.take start) fun k hk =>
    hsyms k (List.mem_of_mem_take hk)
  have hlast := lastBlock_written start 0 (syms.drop start) (p := p)
    (fun k hk => hsyms k (List.mem_of_mem_drop hk)) hp (by
      rw [List.length_drop]
      omega)
  have hpadded : ¬ ((syms.drop start).length + p) % 4 ≠ 0 := by
    rw [List.length_drop]
    omega
  simp only [hfront, hback, hread, hlast, if_neg hpadded, List.take_append_drop, hspare]
  rfl

/-! ## Texts -/

theorem symbol_toNat_lt {k : Nat} (h : k < 64) : (symbol k).toNat < 128 := by
  have all : ∀ k < 64, (symbol k).toNat < 128 := by decide
  exact all k h

/-- The bytes of the text of a byte string. -/
theorem toList_toUTF8_encode (b : Bytes) :
    (encode b).toUTF8.toList =
      (sextets b).map symbolByte ++ List.replicate (pads b) padding := by
  have hascii : ∀ c ∈ encodeChars b, c.toNat < 128 := by
    intro c hc
    rw [encodeChars_eq, List.mem_append, List.mem_map, List.mem_replicate] at hc
    rcases hc with ⟨k, hk, rfl⟩ | ⟨-, rfl⟩
    · exact symbol_toNat_lt (lt_of_mem_sextets hk)
    · decide
  rw [encode, toList_toUTF8_of_lt hascii, encodeChars_eq, List.map_append, List.map_map,
    List.map_replicate]
  rfl

theorem pads_le_two (b : Bytes) : pads b ≤ 2 := by
  rw [pads]
  omega

/-- A byte string is read back from its text. -/
@[simp] theorem decode_encode (b : Bytes) : decode (encode b) = .ok b := by
  rw [decode, toList_toUTF8_encode, decodeBytes_written (fun k hk => lt_of_mem_sextets hk)
    (pads_le_two b) (length_sextets b) (spareBits_sextets b), bytesOf_sextets]

/-- A byte string can be told from its text. -/
theorem encode_inj {a b : Bytes} (h : encode a = encode b) : a = b :=
  Except.ok.inj (by rw [← decode_encode a, h, decode_encode])

/-! ## Nothing else is read -/

theorem eq_symbolByte_of_value? {x : UInt8} {k : Nat} (h : value? x = some k) :
    x = symbolByte k ∧ k < 64 := by
  have all : ∀ n < 256, ∀ k ∈ value? (UInt8.ofNat n), UInt8.ofNat n = symbolByte k ∧ k < 64 := by
    decide +kernel
  have hx := all x.toNat x.toNat_lt k
  rw [UInt8.ofNat_toNat] at hx
  exact hx h

theorem eq_map_of_symbols {offset : Nat} {text : Bytes} {syms : List Nat}
    (h : symbols offset text = .ok syms) :
    text = syms.map symbolByte ∧ ∀ k ∈ syms, k < 64 := by
  induction text generalizing offset syms with
  | nil =>
    obtain rfl := Except.ok.inj h
    exact ⟨rfl, List.forall_mem_nil _⟩
  | cons x rest ih =>
    rw [symbols] at h
    cases hx : value? x with
    | none => simp [hx] at h
    | some k =>
      obtain ⟨rfl, hk⟩ := eq_symbolByte_of_value? hx
      cases hrest : symbols (offset + 1) rest with
      | error fault => simp [hx, hrest, Functor.map, Except.map] at h
      | ok more =>
        simp only [hx, hrest, Functor.map, Except.map, Except.ok.injEq] at h
        obtain ⟨rfl, hmore⟩ := ih hrest
        rw [← h]
        exact ⟨rfl, List.forall_mem_cons.2 ⟨hk, hmore⟩⟩

/-- What is known of the last block when it has been read: its symbols and its padding, which stands
at the third and fourth places of groups. -/
structure Tail.Of (tail : Tail) (index : Nat) (text : Bytes) : Prop where
  text_eq : text = tail.symbols.map symbolByte ++ List.replicate tail.pads padding
  symbols_lt : ∀ k ∈ tail.symbols, k < 64
  places : ∀ i < tail.pads, 2 ≤ (index + tail.symbols.length + i) % 4

/-- Three places in a row are not all at the end of a group. -/
theorem Tail.Of.pads_le_two {tail : Tail} {index : Nat} {text : Bytes} (h : tail.Of index text) :
    tail.pads ≤ 2 := by
  refine Nat.not_lt.1 fun hpads => ?_
  have hzero := h.places 0 (by omega)
  have hone := h.places 1 (by omega)
  have htwo := h.places 2 (by omega)
  omega

theorem of_lastBlock {start index : Nat} {first : Option Nat} {text : Bytes} {tail : Tail}
    (h : lastBlock start index first text = .ok tail) :
    tail.Of index text ∧ (first ≠ none → tail.symbols = []) := by
  induction text generalizing index first tail with
  | nil =>
    obtain rfl := Except.ok.inj h
    exact ⟨⟨rfl, List.forall_mem_nil _, by simp⟩, fun _ => rfl⟩
  | cons x rest ih =>
    unfold lastBlock at h
    split at h
    · next hx =>
      dsimp only at h
      split at h
      · cases h
      · next hindex =>
        cases hrest : lastBlock start (index + 1) (some (first.getD index)) rest with
        | error fault => simp [hrest, Functor.map, Except.map] at h
        | ok more =>
          simp only [hrest, Functor.map, Except.map, Except.ok.injEq] at h
          obtain ⟨⟨htext, -, hplaces⟩, hsymbols⟩ := ih hrest
          have hnone := hsymbols (Option.some_ne_none _)
          subst h hx
          rw [hnone] at htext hplaces
          refine ⟨⟨?_, ?_, ?_⟩, fun _ => hnone⟩
          · rw [hnone, htext]
            rfl
          · simp [hnone]
          · rintro (_ | i) hi
            · simp only [hnone, List.length_nil]
              omega
            · have hplace := hplaces i (Nat.lt_of_succ_lt_succ hi)
              simp only [hnone, List.length_nil] at hplace ⊢
              omega
    · next hx =>
      cases first with
      | some place => simp at h
      | none =>
        dsimp only at h
        cases hk : value? x with
        | none => simp [hk] at h
        | some k =>
          obtain ⟨rfl, hlt⟩ := eq_symbolByte_of_value? hk
          cases hrest : lastBlock start (index + 1) none rest with
          | error fault => simp [hk, hrest, Functor.map, Except.map] at h
          | ok more =>
            simp only [hk, hrest, Functor.map, Except.map, Except.ok.injEq] at h
            obtain ⟨⟨rfl, hmore, hplaces⟩, -⟩ := ih hrest
            subst h
            refine ⟨⟨rfl, List.forall_mem_cons.2 ⟨hlt, hmore⟩, fun i hi => ?_⟩, nofun⟩
            have hplace := hplaces i hi
            simp only [List.length_cons]
            omega

/-- Symbols without spare bits are those of the bytes that they carry. -/
theorem sextets_bytesOf {syms : List Nat} (hlt : ∀ k ∈ syms, k < 64) (hspare : spareBits syms = 0)
    (hlength : syms.length % 4 ≠ 1) : sextets (bytesOf syms) = syms := by
  fun_induction bytesOf syms with
  | case1 a b c d rest w ih =>
    rw [spareBits_append_four] at hspare
    simp only [List.forall_mem_cons] at hlt
    obtain ⟨ha, hb, hc, hd, hrest⟩ := hlt
    simp only [List.length_cons] at hlength
    simp only [sextets, UInt8.toNat_ofNat', ih hrest hspare (by omega), List.cons.injEq, and_true]
    omega
  | case2 a b c w =>
    simp only [List.forall_mem_cons] at hlt
    obtain ⟨ha, hb, hc, -⟩ := hlt
    have hc4 : c % 4 = 0 := hspare
    simp only [sextets, UInt8.toNat_ofNat', List.cons.injEq, and_true]
    omega
  | case3 a b =>
    simp only [List.forall_mem_cons] at hlt
    obtain ⟨ha, hb, -⟩ := hlt
    have hb16 : b % 16 = 0 := hspare
    simp only [sextets, UInt8.toNat_ofNat', List.cons.injEq, and_true]
    omega
  | case4 syms hfour hthree htwo =>
    rcases syms with _ | ⟨a, _ | ⟨b, _ | ⟨c, _ | ⟨d, rest⟩⟩⟩⟩
    · rfl
    · exact absurd rfl hlength
    · exact absurd rfl (htwo a b)
    · exact absurd rfl (hthree a b c)
    · exact absurd rfl (hfour a b c d rest)

theorem pads_bytesOf {syms : List Nat} {p : Nat} (hlt : ∀ k ∈ syms, k < 64)
    (hspare : spareBits syms = 0) (hp : p ≤ 2) (hlength : (syms.length + p) % 4 = 0) :
    pads (bytesOf syms) = p := by
  have hsextets := sextets_bytesOf hlt hspare (by omega)
  have hpads := pads_le_two (bytesOf syms)
  have hwritten := length_sextets (bytesOf syms)
  rw [hsextets] at hwritten
  omega

/-- **A text that is not refused** consists of the symbols of the bytes that are read, and their
padding. -/
theorem written_of_decodeBytes {text b : Bytes} (h : decodeBytes text = .ok b) :
    text = (sextets b).map symbolByte ++ List.replicate (pads b) padding := by
  rw [decodeBytes] at h
  dsimp only at h
  split at h
  · split at h <;> cases h
  · next hlength =>
    generalize hstart : (text.length - 1) / 8 * 8 = start at h
    cases hfront : symbols 0 (text.take start) with
    | error fault => simp [hfront] at h
    | ok front =>
      cases hlast : lastBlock start 0 none (text.drop start) with
      | error fault => simp [hfront, hlast] at h
      | ok tail =>
        simp only [hfront, hlast] at h
        split at h
        · cases h
        next hpadding =>
        split at h
        · cases h
        next hspare =>
        obtain rfl := Except.ok.inj h
        obtain ⟨htake, hfrontlt⟩ := eq_map_of_symbols hfront
        have htail := (of_lastBlock hlast).1
        have hpads := htail.pads_le_two
        have hfrontlength : front.length = start := by
          have hlengths := congrArg List.length htake
          rw [List.length_take, List.length_map] at hlengths
          omega
        have hgroups : ((front ++ tail.symbols).length + tail.pads) % 4 = 0 := by
          rw [List.length_append]
          omega
        have hlt : ∀ k ∈ front ++ tail.symbols, k < 64 :=
          List.forall_mem_append.2 ⟨hfrontlt, htail.symbols_lt⟩
        have hspare := Decidable.of_not_not hspare
        rw [sextets_bytesOf hlt hspare (by omega), pads_bytesOf hlt hspare hpads hgroups,
          List.map_append, List.append_assoc, ← htake, ← htail.text_eq, List.take_append_drop]

/-- **Nothing but the text of a byte string is read as it.** -/
theorem decode_eq_ok_iff {text : String} {b : Bytes} : decode text = .ok b ↔ text = encode b := by
  constructor
  · intro h
    refine toList_toUTF8_inj ?_
    rw [toList_toUTF8_encode]
    exact written_of_decodeBytes h
  · rintro rfl
    exact decode_encode b

end Custody.Text.Base64
