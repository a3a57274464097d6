import Custody.Proofs.Json.Spelling
/-!
# Texts that are split

The converse of spelling: a text spells the tokens that it is split into, as long as they are those
of a text that is JSON and no half of a surrogate pair stands in its strings
(`Lexer.spelled_tokens`). On its way the machine is always inside a token, the beginning of which it
has read (`Lexer.Within`): what it keeps of a number or of a string agrees with what of its text has
gone by (`Lexer.Part.Reads`, `Lexer.Draft.Reads`). One character keeps that, or ends the token, or
stops the machine (`Lexer.advance_step`).
-/

namespace Custody.Json

/-- The token is one of a text that is JSON, and no half of a surrogate pair stands in it. -/
def Token.IsProper (t : Token) : Prop :=
  t ≠ .invalid ∧ t ≠ .string none

theorem Token.IsWord.isProper {t : Token} (h : t.IsWord) : t.IsProper := by
  cases t with
  | invalid => exact h.elim
  | string s => exact h.elim
  | _ => simp [Token.IsProper]

theorem Token.isProper_number (x : Number) : (number x).IsProper := by
  simp [IsProper]

theorem Token.isProper_string (s : String) : (string (some s)).IsProper := by
  simp [IsProper]

theorem CharsText.append {chars text more rest : List Char} (h : CharsText chars text)
    (hmore : CharsText more rest) : CharsText (chars ++ more) (text ++ rest) := by
  induction h with
  | nil => exact hmore
  | cons hc _ ih =>
    rw [List.cons_append, List.append_assoc]
    exact .cons hc ih

namespace Lexer

/-! ## Numbers -/

theorem eq_digitChar_of_digit? {c : Char} {d : Nat} (h : digit? c = some d) :
    c = digitChar d ∧ d < 10 := by
  unfold digit? at h
  split at h
  · next hc =>
    obtain rfl := Option.some.inj h
    have hlow : 48 ≤ c.toNat := hc.1
    have hhigh : c.toNat ≤ 57 := hc.2
    refine ⟨?_, by omega⟩
    rw [digitChar, Nat.add_sub_cancel' hlow, Char.ofNat_toNat]
  · cases h

/-- The text is what has been read of a number up to this part. -/
def Part.Reads : Part → Number → List Char → Prop
  | .sign, x, text => x = ⟨true, [], [], none⟩ ∧ text = ['-']
  | .zero, x, text => (finished x).Written text ∧ x.fraction = [] ∧ x.exponent = none
  | .whole, x, text => (finished x).Written text ∧ x.fraction = [] ∧ x.exponent = none ∧
    x.whole.reverse.headD 0 ≠ 0
  | .point, x, text => ∃ stem, (finished x).Written stem ∧ x.fraction = [] ∧ x.exponent = none ∧
    text = stem ++ ['.']
  | .fraction, x, text => (finished x).Written text ∧ x.fraction ≠ [] ∧ x.exponent = none
  | .mark, x, text => ∃ stem mark, (finished x).Written stem ∧ x.exponent = none ∧
    (mark = 'e' ∨ mark = 'E') ∧ text = stem ++ [mark]
  | .exponentSign, x, text => ∃ stem mark minus sign,
    (finished { x with exponent := none }).Written stem ∧ x.exponent = some (minus, []) ∧
      (mark = 'e' ∨ mark = 'E') ∧ Number.SignText minus sign ∧ text = stem ++ mark :: sign
  | .exponent, x, text => (finished x).Written text ∧ x.exponent ≠ none

/-- A number that may end has been written. -/
theorem Part.Reads.written {part : Part} {x : Number} {text : List Char} (h : part.Reads x text)
    (hpart : part.mayEnd) : (finished x).Written text := by
  cases part <;> first | exact h.1 | cases hpart

/-- A number without exponent is written by its stem. -/
theorem written_iff_of_exponent {x : Number} {text : List Char} (h : x.exponent = none) :
    x.Written text ↔ x.Proper ∧ text = x.stem := by
  constructor
  · rintro ⟨hproper, exponent, hexponent, rfl⟩
    rw [h] at hexponent
    cases hexponent
    exact ⟨hproper, List.append_nil _⟩
  · rintro ⟨hproper, rfl⟩
    exact ⟨hproper, [], h ▸ .none, (List.append_nil _).symm⟩

variable {x : Number} {text : List Char} {d : Nat}

/-- The first digit of a number. -/
theorem written_first (negative : Bool) (hd : d < 10) :
    (finished ⟨negative, [d], [], none⟩).Written
      ((if negative then ['-'] else []) ++ [digitChar d]) := by
  rw [written_iff_of_exponent rfl]
  refine ⟨⟨?_, by simpa [finished] using hd, by simp [finished], by simp [finished]⟩, ?_⟩
  · rcases Nat.eq_zero_or_pos d with rfl | hpos
    · exact .inl rfl
    · exact .inr (Nat.pos_iff_ne_zero.1 hpos)
  · simp [Number.stem, finished]

/-- One more digit before the point. -/
theorem written_whole (h : (finished x).Written text) (hfraction : x.fraction = [])
    (hexponent : x.exponent = none) (hhead : x.whole.reverse.headD 0 ≠ 0) (hd : d < 10) :
    (finished { x with whole := d :: x.whole }).Written (text ++ [digitChar d]) ∧
      (d :: x.whole).reverse.headD 0 ≠ 0 := by
  obtain ⟨negative, whole, fraction, exponent⟩ := x
  subst hfraction hexponent
  rw [written_iff_of_exponent rfl] at h ⊢
  obtain ⟨⟨-, hwhole, -, -⟩, rfl⟩ := h
  have hmore : (d :: whole).reverse.headD 0 ≠ 0 := by
    cases hr : whole.reverse with
    | nil => simp [hr] at hhead
    | cons e rest => simpa [hr] using hhead
  refine ⟨⟨⟨.inr hmore, ?_, by simp [finished], by simp [finished]⟩, ?_⟩, hmore⟩
  · simp only [finished, List.mem_reverse, List.mem_cons] at hwhole ⊢
    rintro e (rfl | he)
    · exact hd
    · exact hwhole e he
  · cases negative <;> simp [Number.stem, finished]

/-- The first digit after the point, and one more. -/
theorem written_fraction (h : (finished x).Written text) (hexponent : x.exponent = none)
    (hd : d < 10) :
    (finished { x with fraction := d :: x.fraction }).Written
      (text ++ (if x.fraction = [] then ['.'] else []) ++ [digitChar d]) := by
  obtain ⟨negative, whole, fraction, exponent⟩ := x
  subst hexponent
  rw [written_iff_of_exponent rfl] at h ⊢
  obtain ⟨⟨hwhole, hlt, hfraction, -⟩, rfl⟩ := h
  refine ⟨⟨hwhole, hlt, ?_, by simp [finished]⟩, ?_⟩
  · simp only [finished, List.mem_reverse, List.mem_cons] at hfraction ⊢
    rintro e (rfl | he)
    · exact hd
    · exact hfraction e he
  · cases negative <;> cases fraction <;> simp [Number.stem, finished]

/-- The first digit of the exponent. -/
theorem written_exponent {mark : Char} {minus : Bool} {sign : List Char}
    (h : (finished x).Written text) (hexponent : x.exponent = none)
    (hmark : mark = 'e' ∨ mark = 'E') (hsign : Number.SignText minus sign) (hd : d < 10) :
    (finished { x with exponent := some (minus, [d]) }).Written
      (text ++ mark :: sign ++ [digitChar d]) := by
  obtain ⟨negative, whole, fraction, exponent⟩ := x
  subst hexponent
  rw [written_iff_of_exponent rfl] at h
  obtain ⟨⟨hwhole, hlt, hfraction, -⟩, rfl⟩ := h
  refine ⟨⟨hwhole, hlt, hfraction, by simpa [finished] using hd⟩,
    mark :: (sign ++ [d].map digitChar), .some [d] hmark hsign, ?_⟩
  cases negative <;> simp [Number.stem, finished]

/-- One more digit of the exponent. -/
theorem written_exponent_more (h : (finished x).Written text) (hexponent : x.exponent ≠ none)
    (hd : d < 10) :
    (finished { x with exponent := x.exponent.map fun e => (e.1, d :: e.2) }).Written
      (text ++ [digitChar d]) := by
  obtain ⟨negative, whole, fraction, exponent⟩ := x
  obtain ⟨⟨minus, digits⟩, rfl⟩ := Option.ne_none_iff_exists'.1 hexponent
  obtain ⟨⟨hwhole, hlt, hfraction, hdigits⟩, exponent, htext, rfl⟩ := h
  cases htext with | @some mark _ sign _ hmark hsign
  refine ⟨⟨hwhole, hlt, hfraction, ?_⟩, mark :: (sign ++ (d :: digits).reverse.map digitChar),
    .some _ hmark hsign, ?_⟩
  · have hold := (hdigits (minus, digits.reverse) rfl).2
    simp only [List.mem_reverse] at hold
    simp only [finished, Option.map_some, Option.mem_def, Option.some.injEq, forall_eq', ne_eq,
      List.reverse_eq_nil_iff, List.mem_reverse, List.mem_cons]
    refine ⟨List.cons_ne_nil d digits, ?_⟩
    rintro e (rfl | he)
    · exact hd
    · exact hold e he
  · cases negative <;> simp [Number.stem, finished]

/-- **A number goes on as it may be written.** -/
theorem Part.Reads.continue? {part part' : Part} {x' : Number} {c : Char} (h : part.Reads x text)
    (hc : continue? part x c = some (part', x')) : part'.Reads x' (text ++ [c]) := by
  unfold Lexer.continue? at hc
  cases hdigit : digit? c with
  | some d =>
    obtain ⟨rfl, hd⟩ := eq_digitChar_of_digit? hdigit
    rw [hdigit] at hc
    cases part with
    | sign =>
      obtain ⟨rfl, rfl⟩ := h
      obtain ⟨rfl, rfl⟩ := Prod.mk.inj (Option.some.inj hc)
      have hfirst := written_first true hd
      split
      · exact ⟨hfirst, rfl, rfl⟩
      · next hne => exact ⟨hfirst, rfl, rfl, hne⟩
    | zero => cases hc
    | whole =>
      obtain ⟨hw, hf, he, hhead⟩ := h
      obtain ⟨rfl, rfl⟩ := Prod.mk.inj (Option.some.inj hc)
      obtain ⟨hmore, hhead'⟩ := written_whole hw hf he hhead hd
      exact ⟨hmore, hf, he, hhead'⟩
    | point =>
      obtain ⟨stem, hw, hf, he, rfl⟩ := h
      obtain ⟨rfl, rfl⟩ := Prod.mk.inj (Option.some.inj hc)
      have hmore := written_fraction hw he hd
      rw [if_pos hf] at hmore
      exact ⟨hmore, List.cons_ne_nil _ _, he⟩
    | fraction =>
      obtain ⟨hw, hf, he⟩ := h
      obtain ⟨rfl, rfl⟩ := Prod.mk.inj (Option.some.inj hc)
      have hmore := written_fraction hw he hd
      rw [if_neg hf, List.append_nil] at hmore
      exact ⟨hmore, List.cons_ne_nil _ _, he⟩
    | mark =>
      obtain ⟨stem, mark, hw, he, hmark, rfl⟩ := h
      obtain ⟨rfl, rfl⟩ := Prod.mk.inj (Option.some.inj hc)
      exact ⟨written_exponent hw he hmark .none hd, Option.some_ne_none _⟩
    | exponentSign =>
      obtain ⟨stem, mark, minus, sign, hw, he, hmark, hsign, rfl⟩ := h
      obtain ⟨rfl, rfl⟩ := Prod.mk.inj (Option.some.inj hc)
      have hmore := written_exponent hw rfl hmark hsign hd
      rw [he]
      exact ⟨hmore, Option.some_ne_none _⟩
    | exponent =>
      obtain ⟨hw, he⟩ := h
      obtain ⟨rfl, rfl⟩ := Prod.mk.inj (Option.some.inj hc)
      exact ⟨written_exponent_more hw he hd, by simpa using he⟩
  | none =>
    simp only [hdigit] at hc
    split_ifs at hc with hpoint hpart he hpart hsign hpart
    · obtain ⟨rfl, rfl⟩ := Prod.mk.inj (Option.some.inj hc)
      subst hpoint
      rcases hpart with rfl | rfl
      · exact ⟨text, h.1, h.2.1, h.2.2, rfl⟩
      · exact ⟨text, h.1, h.2.1, h.2.2.1, rfl⟩
    · obtain ⟨rfl, rfl⟩ := Prod.mk.inj (Option.some.inj hc)
      rcases hpart with rfl | rfl | rfl
      · exact ⟨text, c, h.1, h.2.2, he, rfl⟩
      · exact ⟨text, c, h.1, h.2.2.1, he, rfl⟩
      · exact ⟨text, c, h.1, h.2.2, he, rfl⟩
    · obtain ⟨rfl, rfl⟩ := Prod.mk.inj (Option.some.inj hc)
      subst hpart
      obtain ⟨stem, mark, hw, hexponent, hmark, rfl⟩ := h
      obtain ⟨negative, whole, fraction, exponent⟩ := x
      subst hexponent
      rcases hsign with rfl | rfl
      · exact ⟨stem, mark, false, ['+'], hw, rfl, hmark, .plus, by simp⟩
      · exact ⟨stem, mark, true, ['-'], hw, rfl, hmark, .minus, by simp⟩

/-! ## Strings -/

/-- The text is what has been read of a string after its first quote. Nothing is said of a string in
which half of a surrogate pair stands. -/
def Draft.Reads (draft : Draft) (text : List Char) : Prop :=
  draft.proper = true → CharsText draft.chars.reverse text

theorem Draft.reads_spoil (draft : Draft) (text : List Char) : draft.spoil.Reads text :=
  nofun

theorem Draft.Reads.push {draft : Draft} {more : List Char} {c : Char} (h : draft.Reads text)
    (hc : CharText c more) : (draft.push c).Reads (text ++ more) := by
  intro hproper
  rw [Draft.push, List.reverse_cons]
  have hone := CharsText.cons hc .nil
  rw [List.append_nil] at hone
  exact (h hproper).append hone

/-! ## Inside a token -/

/-- The machine is in this state when it has read the text, which is the beginning of a token. -/
inductive Within : State → List Char → Prop
  | between : Within .between []
  | word {t : Token} {read rest : List Char} (ht : t.IsWord) (hchars : t.chars = read ++ rest)
    (hrest : rest ≠ []) : Within (.word rest t) read
  | number {part : Part} {x : Number} {text : List Char} (h : part.Reads x text) :
    Within (.number part x) text
  | text {draft : Draft} {text : List Char} (h : draft.Reads text) :
    Within (.text draft) ('"' :: text)
  | escape {draft : Draft} {text : List Char} (h : draft.Reads text) :
    Within (.escape draft) ('"' :: (text ++ ['\\']))
  | code {draft : Draft} {text digits : List Char} {k : Nat} (h : draft.Reads text)
    (hdigits : HexText k digits) (hlt : digits.length < 4) :
    Within (.code draft none digits.length k) ('"' :: (text ++ '\\' :: 'u' :: digits))
  | half {draft : Draft} {text first : List Char} {high : Nat} (h : draft.Reads text)
    (hfirst : CodeText high first) (hhigh : isHigh high = true) :
    Within (.half draft high) ('"' :: (text ++ '\\' :: 'u' :: first))
  | halfEscape {draft : Draft} {text first : List Char} {high : Nat} (h : draft.Reads text)
    (hfirst : CodeText high first) (hhigh : isHigh high = true) :
    Within (.halfEscape draft high) ('"' :: (text ++ '\\' :: 'u' :: first ++ ['\\']))
  | halfCode {draft : Draft} {text first digits : List Char} {high k : Nat} (h : draft.Reads text)
    (hfirst : CodeText high first) (hhigh : isHigh high = true) (hdigits : HexText k digits)
    (hlt : digits.length < 4) :
    Within (.code draft (some high) digits.length k)
      ('"' :: (text ++ '\\' :: 'u' :: first ++ '\\' :: 'u' :: digits))

/-- What a character does to a machine that has read the beginning of a token: it goes on with the
token, ends it, stands between two tokens, or stops the machine. -/
inductive Advance (text : List Char) (c : Char) : Machine → Prop
  | within {s : State} (h : Within s (text ++ [c])) : Advance text c ⟨s, []⟩
  | ended {t : Token} (h : t.IsProper → t.Written (text ++ [c])) (hnumber : ∀ x, t ≠ .number x) :
    Advance text c ⟨.between, [t]⟩
  | space (htext : text = []) (hc : isSpace c = true) : Advance text c ⟨.between, []⟩
  | stopped (done : List Token) : Advance text c ⟨.stopped, done⟩

theorem advance_word {t : Token} (ht : t.IsWord) {c : Char} (hchars : t.chars = [c]) :
    Advance [] c ⟨.between, [t]⟩ := by
  refine .ended (fun _ => ?_) fun x hx => by simp [hx, Token.IsWord] at ht
  have hword := Token.Written.word ht
  rwa [hchars] at hword

/-- The first character of a token. -/
theorem advance_start (c : Char) : Advance [] c (start c []) := by
  unfold start
  refine iteInduction (fun h => .space rfl h) fun _ => ?_
  refine iteInduction (fun h => advance_word (t := .openBrace) trivial (h ▸ rfl)) fun _ => ?_
  refine iteInduction (fun h => advance_word (t := .closeBrace) trivial (h ▸ rfl)) fun _ => ?_
  refine iteInduction (fun h => advance_word (t := .openBracket) trivial (h ▸ rfl)) fun _ => ?_
  refine iteInduction (fun h => advance_word (t := .closeBracket) trivial (h ▸ rfl)) fun _ => ?_
  refine iteInduction (fun h => advance_word (t := .comma) trivial (h ▸ rfl)) fun _ => ?_
  refine iteInduction (fun h => advance_word (t := .colon) trivial (h ▸ rfl)) fun _ => ?_
  refine iteInduction (fun h => .within (h ▸ .text fun _ => .nil)) fun _ => ?_
  refine iteInduction (fun h => .within (h ▸ ?_)) fun _ => ?_
  · exact .word (t := .null) trivial rfl (List.cons_ne_nil _ _)
  refine iteInduction (fun h => .within (h ▸ ?_)) fun _ => ?_
  · exact .word (t := .bool true) trivial rfl (List.cons_ne_nil _ _)
  refine iteInduction (fun h => .within (h ▸ ?_)) fun _ => ?_
  · exact .word (t := .bool false) trivial rfl (List.cons_ne_nil _ _)
  refine iteInduction (fun h => .within (h ▸ ?_)) fun _ => ?_
  · exact .number ⟨rfl, rfl⟩
  split
  · next hd =>
    obtain ⟨rfl, hlt⟩ := eq_digitChar_of_digit? hd
    exact .within (.number ⟨written_first false hlt, rfl, rfl⟩)
  · next d hne hd =>
    obtain ⟨rfl, hlt⟩ := eq_digitChar_of_digit? hd
    exact .within (.number ⟨written_first false hlt, rfl, rfl, hne⟩)
  · exact .stopped []

/-- A character inside a string. -/
theorem advance_text {draft : Draft} (h : draft.Reads text) (c : Char) :
    Advance ('"' :: text) c (stepText draft c []) := by
  unfold stepText
  split_ifs with hquote hbackslash hcontrol
  · subst hquote
    refine .ended (fun hproper => ?_) nofun
    have hp : draft.proper = true := by
      by_contra hp
      exact hproper.2 (by simp [Draft.token, hp])
    rw [Draft.token, if_pos hp, List.cons_append]
    exact .string (by simpa using h hp)
  · subst hbackslash
    exact .within (.escape h)
  · exact .stopped []
  · exact .within (.text (h.push (.plain hquote hbackslash (Nat.not_lt.1 hcontrol))))

/-- A character after a backslash. -/
theorem advance_escape {draft : Draft} (h : draft.Reads text) (c : Char) :
    Advance ('"' :: (text ++ ['\\'])) c (stepEscape draft c []) := by
  unfold stepEscape
  split_ifs with hu
  · subst hu
    have hcode := Within.code h .nil (by decide)
    exact .within (by simpa using hcode)
  · split
    · next e he =>
      have htext := Within.text (h.push (.short (escaped?_eq_some_iff.1 he)))
      exact .within (by simpa using htext)
    · exact .stopped []

/-- **A character inside a code** completes it, is one more digit of it, or stops the machine. -/
theorem stepCode_cases {digits : List Char} {k : Nat} (hdigits : HexText k digits)
    (hlt : digits.length < 4) (draft : Draft) (high : Option Nat) (c : Char) :
    (∃ unit, CodeText unit (digits ++ [c]) ∧
      stepCode draft high digits.length k c [] = ⟨endCode draft high unit, []⟩) ∨
    (∃ more, HexText more (digits ++ [c]) ∧ (digits ++ [c]).length < 4 ∧
      stepCode draft high digits.length k c [] =
        ⟨.code draft high (digits ++ [c]).length more, []⟩) ∨
    stepCode draft high digits.length k c [] = ⟨.stopped, []⟩ := by
  have hlength : (digits ++ [c]).length = digits.length + 1 := List.length_append
  unfold stepCode
  cases hd : hexDigit? c with
  | none => exact .inr (.inr rfl)
  | some d =>
    have hmore := hdigits.snoc hd
    by_cases hthree : digits.length = 3
    · exact .inl ⟨_, ⟨hmore, by omega⟩, if_pos hthree⟩
    · refine .inr (.inl ⟨_, hmore, by omega, ?_⟩)
      rw [hlength]
      exact if_neg hthree

/-- A character inside the code of a unit. -/
theorem advance_code {draft : Draft} {digits : List Char} {k : Nat} (h : draft.Reads text)
    (hdigits : HexText k digits) (hlt : digits.length < 4) (c : Char) :
    Advance ('"' :: (text ++ '\\' :: 'u' :: digits)) c
      (stepCode draft none digits.length k c []) := by
  rcases stepCode_cases hdigits hlt draft none c with
    ⟨unit, hcode, hstep⟩ | ⟨more, hmore, hlt', hstep⟩ | hstep
  · rw [hstep]
    refine .within ?_
    unfold endCode
    dsimp only
    split_ifs with hhigh hlow
    · simpa using Within.half h hcode hhigh
    · exact .text (draft.reads_spoil _)
    · have htext := h.push (.code hcode (Bool.eq_false_iff.2 hhigh) (Bool.eq_false_iff.2 hlow))
      simpa using Within.text htext
  · rw [hstep]
    exact .within (by simpa using Within.code h hmore hlt')
  · rw [hstep]
    exact .stopped []

/-- A character inside the code of the second half of a surrogate pair. -/
theorem advance_halfCode {draft : Draft} {first digits : List Char} {high k : Nat}
    (h : draft.Reads text) (hfirst : CodeText high first) (hhigh : isHigh high = true)
    (hdigits : HexText k digits) (hlt : digits.length < 4) (c : Char) :
    Advance ('"' :: (text ++ '\\' :: 'u' :: first ++ '\\' :: 'u' :: digits)) c
      (stepCode draft (some high) digits.length k c []) := by
  rcases stepCode_cases hdigits hlt draft (some high) c with
    ⟨unit, hcode, hstep⟩ | ⟨more, hmore, hlt', hstep⟩ | hstep
  · rw [hstep]
    refine .within ?_
    unfold endCode
    dsimp only
    split_ifs with hlow
    · have htext := h.push (.pair hfirst hhigh hcode hlow)
      simpa using Within.text htext
    · exact .text (draft.reads_spoil _)
  · rw [hstep]
    exact .within (by simpa using Within.halfCode h hfirst hhigh hmore hlt')
  · rw [hstep]
    exact .stopped []

/-- **What one character does** to a machine that has read the beginning of a token. A number may
also end before the character. -/
theorem advance_step {s : State} (h : Within s text) (c : Char) :
    Advance text c (step ⟨s, []⟩ c) ∨
      ∃ x, x.Written text ∧ digit? c = none ∧ step ⟨s, []⟩ c = start c [.number x] := by
  cases h with
  | between => exact .inl (advance_start c)
  | @word t read rest ht hchars hrest =>
    refine .inl ?_
    obtain ⟨next, rest, rfl⟩ := List.exists_cons_of_ne_nil hrest
    cases rest with
    | nil =>
      simp only [step]
      split_ifs with hc
      · subst hc
        refine .ended (fun _ => hchars ▸ .word ht) fun x hx => by simp [hx, Token.IsWord] at ht
      · exact .stopped []
    | cons last rest =>
      simp only [step]
      split_ifs with hc
      · subst hc
        exact .within (.word ht (by simpa using hchars) (List.cons_ne_nil _ _))
      · exact .stopped []
  | @number part x text h =>
    simp only [step, stepNumber]
    cases hc : continue? part x c with
    | some next => exact .inl (.within (.number (h.continue? hc)))
    | none =>
      dsimp only
      split_ifs with hend
      · simp only [Bool.and_eq_true, Option.isNone_iff_eq_none] at hend
        exact .inr ⟨finished x, h.written hend.1, hend.2, rfl⟩
      · exact .inl (.stopped [])
  | text h => exact .inl (advance_text h c)
  | escape h => exact .inl (advance_escape h c)
  | code h hdigits hlt => exact .inl (advance_code h hdigits hlt c)
  | @half draft text first high h hfirst hhigh =>
    simp only [step]
    split_ifs with hc
    · subst hc
      exact .inl (.within (by simpa using Within.halfEscape h hfirst hhigh))
    · exact .inl (advance_text (draft.reads_spoil _) c)
  | @halfEscape draft text first high h hfirst hhigh =>
    simp only [step]
    split_ifs with hc
    · subst hc
      have hcode := Within.halfCode h hfirst hhigh .nil (by decide)
      exact .inl (.within (by simpa using hcode))
    · exact .inl (advance_escape (draft.reads_spoil _) c)
  | halfCode h hfirst hhigh hdigits hlt =>
    exact .inl (advance_halfCode h hfirst hhigh hdigits hlt c)

/-! ## A whole text -/

/-- The machine, when other tokens have been completed before. -/
def Machine.behind (done : List Token) (m : Machine) : Machine :=
  ⟨m.state, m.done ++ done⟩

/-- The tokens that have been completed are of no account to a step. -/
theorem start_append (c : Char) (before done : List Token) :
    start c (before ++ done) = (start c before).behind done := by
  simp only [start, apply_ite (Machine.behind done)]
  rcases digit? c with _ | _ | d <;> rfl

theorem step_append (s : State) (before done : List Token) (c : Char) :
    step ⟨s, before ++ done⟩ c = (step ⟨s, before⟩ c).behind done := by
  have htext (draft : Draft) :
      stepText draft c (before ++ done) = (stepText draft c before).behind done := by
    simp only [stepText, apply_ite (Machine.behind done)]
    rfl
  have hescape (draft : Draft) :
      stepEscape draft c (before ++ done) = (stepEscape draft c before).behind done := by
    simp only [stepEscape, apply_ite (Machine.behind done)]
    cases escaped? c <;> rfl
  cases s with
  | between => exact start_append c before done
  | word rest token =>
    rcases rest with _ | ⟨next, _ | ⟨last, rest⟩⟩
    · exact start_append c (token :: before) done
    · simp only [step, apply_ite (Machine.behind done)]
      rfl
    · simp only [step, apply_ite (Machine.behind done)]
      rfl
  | number part x =>
    have hstart := start_append c (.number (finished x) :: before) done
    simp only [step, stepNumber]
    cases continue? part x c with
    | some next => rfl
    | none =>
      rw [apply_ite (Machine.behind done), ← hstart]
      rfl
  | text draft => exact htext draft
  | escape draft => exact hescape draft
  | code draft high digits k =>
    simp only [step, stepCode]
    cases hexDigit? c with
    | none => rfl
    | some d =>
      rw [apply_ite (Machine.behind done)]
      rfl
  | half draft high =>
    simp only [step, apply_ite (Machine.behind done), ← htext]
    rfl
  | halfEscape draft high =>
    simp only [step, apply_ite (Machine.behind done), ← hescape]
    rfl
  | stopped => rfl

/-- The tokens that come of the rest of a text. -/
def outcome (s : State) (rest : List Char) : List Token :=
  finish (rest.foldl step ⟨s, []⟩)

theorem finish_foldl (s : State) (done : List Token) (rest : List Char) :
    finish (rest.foldl step ⟨s, done⟩) = done.reverse ++ outcome s rest := by
  induction rest generalizing s done with
  | nil =>
    cases s with
    | number part x => by_cases h : part.mayEnd <;> simp [outcome, finish, h]
    | _ => simp [outcome, finish]
  | cons c rest ih =>
    have hstep : step ⟨s, done⟩ c =
        ⟨(step ⟨s, []⟩ c).state, (step ⟨s, []⟩ c).done ++ done⟩ := step_append s [] done c
    rw [outcome, List.foldl_cons, List.foldl_cons, hstep, ih,
      ih (step ⟨s, []⟩ c).state (step ⟨s, []⟩ c).done, List.reverse_append, List.append_assoc]

theorem outcome_cons (s : State) (c : Char) (rest : List Char) :
    outcome s (c :: rest) =
      (step ⟨s, []⟩ c).done.reverse ++ outcome (step ⟨s, []⟩ c).state rest :=
  finish_foldl (step ⟨s, []⟩ c).state (step ⟨s, []⟩ c).done rest

/-- A machine that has stopped finds no more tokens. -/
theorem outcome_stopped (rest : List Char) : outcome .stopped rest = [.invalid] := by
  induction rest with
  | nil => rfl
  | cons c rest ih => exact ih

/-- The text spells the tokens, unless one of them is not proper. -/
def SpelledIfProper (ts : List Token) (chars : List Char) : Prop :=
  (∀ t ∈ ts, t.IsProper) → Spelled ts chars

theorem spelledIfProper_of_invalid (before : List Token) (chars : List Char) :
    SpelledIfProper (before ++ [.invalid]) chars :=
  fun h => absurd rfl (h .invalid (List.mem_append_right before List.mem_cons_self)).1

/-- What comes of a text after one character. -/
theorem Advance.spelledIfProper {c : Char} {m : Machine} (h : Advance text c m) {rest : List Char}
    (ih : ∀ s text, Within s text → SpelledIfProper (outcome s rest) (text ++ rest)) :
    SpelledIfProper (m.done.reverse ++ outcome m.state rest) (text ++ c :: rest) := by
  cases h with
  | within h => simpa using ih _ _ h
  | @ended t h hnumber =>
    intro hproper
    have hrest := ih _ _ .between fun t ht => hproper t (List.mem_append_right _ ht)
    have htoken := Spelled.token (h (hproper t List.mem_cons_self))
      (fun x hx => absurd hx (hnumber x)) hrest
    simpa using htoken
  | space htext hc =>
    intro hproper
    rw [htext]
    exact .space hc (ih _ _ .between hproper)
  | stopped done =>
    rw [outcome_stopped]
    exact spelledIfProper_of_invalid _ _

/-- A number ends where it is followed by the beginning of another token. -/
theorem endsNumber_of_start {c : Char} {rest : List Char} (hdigit : digit? c = none)
    (hproper : ∀ t ∈ outcome .between (c :: rest), t.IsProper) : EndsNumber (c :: rest) := by
  have hstop (h : step ⟨.between, []⟩ c = ⟨.stopped, []⟩) : False := by
    rw [outcome_cons, h, outcome_stopped] at hproper
    exact (hproper .invalid List.mem_cons_self).1 rfl
  refine ⟨hdigit, ?_, ?_, ?_⟩
  · rintro rfl
    exact hstop rfl
  · rintro rfl
    exact hstop rfl
  · rintro rfl
    exact hstop rfl

/-- **What follows the beginning of a token.** -/
theorem spelled_outcome (rest : List Char) (s : State) (text : List Char) (h : Within s text) :
    SpelledIfProper (outcome s rest) (text ++ rest) := by
  induction rest generalizing s text with
  | nil =>
    cases h with
    | between => exact fun _ => .nil
    | @number part x text h =>
      by_cases hend : part.mayEnd
      · intro _
        have hnumber : Spelled [.number (finished x)] (text ++ []) :=
          .token (.number (h.written hend)) (fun _ _ => trivial) .nil
        simpa [outcome, finish, hend] using hnumber
      · simpa [outcome, finish, hend] using spelledIfProper_of_invalid [] text
    | _ => exact spelledIfProper_of_invalid [] _
  | cons c rest ih =>
    have hbetween : SpelledIfProper (outcome .between (c :: rest)) (c :: rest) := by
      rw [outcome_cons]
      exact (advance_start c).spelledIfProper ih
    rcases advance_step h c with hadvance | ⟨x, hx, hdigit, hstep⟩
    · rw [outcome_cons]
      exact hadvance.spelledIfProper ih
    · -- the character comes after the number
      have houtcome : outcome s (c :: rest) = .number x :: outcome .between (c :: rest) := by
        have hafter := finish_foldl .between [.number x] (c :: rest)
        rw [outcome, List.foldl_cons, hstep]
        exact hafter
      rw [houtcome]
      intro hproper
      have hrest := fun t ht => hproper t (List.mem_cons_of_mem _ ht)
      exact .token (.number hx) (fun _ _ => endsNumber_of_start hdigit hrest) (hbetween hrest)

/-- **A text spells its tokens**, if they are those of a text that is JSON. -/
theorem spelled_tokens {chars : List Char} (h : ∀ t ∈ tokens chars, t.IsProper) :
    Spelled (tokens chars) chars :=
  spelled_outcome chars .between [] .between h

end Lexer

end Custody.Json
