import Mathlib.Tactic.IntervalCases
import Custody.Json.Value
/-!
# Tokens and their spelling

How tokens may be written, said without a machine that reads them. A number has no digit that could
be left out in front, and its exponent may have a sign (`Number.Written`). A character of a string
is written as it is, by a short escape, by the code of a unit of sixteen bits, or by two codes, the
halves of a surrogate pair (`CharText`). A text spells tokens when it writes them one after the
other, with spaces wherever they are liked, and no number runs into what follows it (`Spelled`).

* `Lexer.tokens_of_spelled`: splitting a text gives the tokens that it spells.
* `Lexer.Spelled.fixed`, `Lexer.Spelled.nat`: what a program writes for a token spells it.
-/

namespace Custody.Json

open Lexer

/-! ## How tokens are written -/

namespace Number

/-- The digits of a number are digits, and none in front could be left out. -/
structure Proper (x : Number) : Prop where
  whole : x.whole = [0] ∨ x.whole.headD 0 ≠ 0
  whole_lt : ∀ d ∈ x.whole, d < 10
  fraction_lt : ∀ d ∈ x.fraction, d < 10
  exponent : ∀ e ∈ x.exponent, e.2 ≠ [] ∧ ∀ d ∈ e.2, d < 10

/-- The sign of a number and its digits before the exponent. -/
def stem (x : Number) : List Char :=
  (if x.negative then ['-'] else []) ++ x.whole.map digitChar ++
    if x.fraction = [] then [] else '.' :: x.fraction.map digitChar

/-- The signs of an exponent. -/
inductive SignText : (minus : Bool) → List Char → Prop
  | none : SignText false []
  | plus : SignText false ['+']
  | minus : SignText true ['-']

/-- The text writes an exponent. -/
inductive ExponentText : Option (Bool × List Nat) → List Char → Prop
  | none : ExponentText none []
  | some {mark : Char} {minus : Bool} {sign : List Char} (digits : List Nat)
    (hmark : mark = 'e' ∨ mark = 'E') (hsign : SignText minus sign) :
    ExponentText (some (minus, digits)) (mark :: (sign ++ digits.map digitChar))

/-- The text writes the number. -/
structure Written (x : Number) (text : List Char) : Prop where
  proper : x.Proper
  eq_append : ∃ exponent, ExponentText x.exponent exponent ∧ text = x.stem ++ exponent

end Number

/-- The text is one of hexadecimal digits, of either case, for a number. -/
inductive HexText : Nat → List Char → Prop
  | nil : HexText 0 []
  | snoc {k d : Nat} {c : Char} {text : List Char} (h : HexText k text)
    (hd : hexDigit? c = some d) : HexText (k * 16 + d) (text ++ [c])

/-- The text is a code of four digits for a unit. -/
def CodeText (unit : Nat) (text : List Char) : Prop :=
  HexText unit text ∧ text.length = 4

/-- The letters of the short escapes, and the characters that they name. -/
def shortEscapes : List (Char × Char) :=
  [('"', '"'), ('\\', '\\'), ('/', '/'), ('b', '\x08'), ('f', '\x0c'), ('n', '\n'), ('r', '\r'),
    ('t', '\t')]

/-- The text writes the character, inside a string. -/
inductive CharText : Char → List Char → Prop
  | plain {c : Char} (hquote : c ≠ '"') (hbackslash : c ≠ '\\') (hcontrol : 32 ≤ c.toNat) :
    CharText c [c]
  | short {e c : Char} (h : (e, c) ∈ shortEscapes) : CharText c ['\\', e]
  | code {unit : Nat} {text : List Char} (h : CodeText unit text) (hhigh : isHigh unit = false)
    (hlow : isLow unit = false) : CharText (Char.ofNat unit) ('\\' :: 'u' :: text)
  /-- Two halves of a surrogate pair. -/
  | pair {high low : Nat} {first second : List Char} (hfirst : CodeText high first)
    (hhigh : isHigh high = true) (hsecond : CodeText low second) (hlow : isLow low = true) :
    CharText (Char.ofNat (0x10000 + (high - 0xD800) * 0x400 + (low - 0xDC00)))
      ('\\' :: 'u' :: first ++ '\\' :: 'u' :: second)

/-- The text writes the characters, inside a string. -/
inductive CharsText : List Char → List Char → Prop
  | nil : CharsText [] []
  | cons {c : Char} {chars text rest : List Char} (hc : CharText c text)
    (hrest : CharsText chars rest) : CharsText (c :: chars) (text ++ rest)

/-- A token that is written in one way. -/
def Token.IsWord : Token → Prop
  | .number _ | .string _ | .invalid => False
  | _ => True

/-- The text writes the token. -/
inductive Token.Written : Token → List Char → Prop
  | word {t : Token} (h : t.IsWord) : Written t t.chars
  | number {x : Number} {text : List Char} (h : x.Written text) : Written (.number x) text
  | string {s : String} {text : List Char} (h : CharsText s.toList text) :
    Written (.string (some s)) ('"' :: (text ++ ['"']))

namespace Lexer

/-- What follows a number does not belong to it. -/
def EndsNumber : List Char → Prop
  | [] => True
  | c :: _ => digit? c = none ∧ c ≠ '.' ∧ c ≠ 'e' ∧ c ≠ 'E'

/-- The text writes the tokens, with spaces between them. -/
inductive Spelled : List Token → List Char → Prop
  | nil : Spelled [] []
  | space {c : Char} {ts : List Token} {chars : List Char} (hc : isSpace c)
    (rest : Spelled ts chars) : Spelled ts (c :: chars)
  | token {t : Token} {ts : List Token} {text chars : List Char} (ht : t.Written text)
    (hends : ∀ x, t = .number x → EndsNumber chars) (rest : Spelled ts chars) :
    Spelled (t :: ts) (text ++ chars)

/-! ## Numbers are read -/

theorem digit?_digitChar {d : Nat} (h : d < 10) : digit? (digitChar d) = some d := by
  have all : ∀ d < 10, digit? (digitChar d) = some d := by decide
  exact all d h

/-- The machine has completed the tokens `done`, the last of which may be a number that could still
go on. -/
inductive Settled (done : List Token) : Machine → Prop
  | between : Settled done ⟨.between, done⟩
  | number {part : Part} {x : Number} {before : List Token} (hpart : part.mayEnd)
    (hdone : done = .number (finished x) :: before) : Settled done ⟨.number part x, before⟩

theorem finish_of_settled {done : List Token} {m : Machine} (h : Settled done m) :
    finish m = done.reverse := by
  cases h with
  | between => rfl
  | number hpart hdone => simp only [finish, if_pos hpart, hdone]

theorem continue?_eq_none {part : Part} (x : Number) {c : Char} {rest : List Char}
    (hpart : part.mayEnd) (hc : EndsNumber (c :: rest)) : continue? part x c = none := by
  obtain ⟨hdigit, hpoint, he, hE⟩ := hc
  have hmark : part ≠ .mark := by
    rintro rfl
    exact absurd hpart (by decide)
  simp [continue?, hdigit, hpoint, he, hE, hmark]

/-- A number that has been read makes no difference to what follows it. -/
theorem finish_foldl_of_settled {done : List Token} {m : Machine} (h : Settled done m)
    {chars : List Char} (hchars : EndsNumber chars) :
    finish (chars.foldl step m) = finish (chars.foldl step ⟨.between, done⟩) := by
  cases chars with
  | nil => exact finish_of_settled h
  | cons c rest =>
    have hstep : step m c = step ⟨.between, done⟩ c := by
      cases h with
      | between => rfl
      | number hpart hdone =>
        have hend : (digit? c).isNone := by rw [hchars.1, Option.isNone_none]
        simp only [step, stepNumber, continue?_eq_none _ hpart hchars, hpart, hend, Bool.and_self,
          if_true, hdone]
    rw [List.foldl_cons, List.foldl_cons, hstep]

/-- The number with more digits in the part that is being read. -/
def withDigits (part : Part) (digits : List Nat) (x : Number) : Number :=
  match part with
  | .whole => { x with whole := digits.reverse ++ x.whole }
  | .fraction => { x with fraction := digits.reverse ++ x.fraction }
  | .exponent => { x with exponent := x.exponent.map fun e => (e.1, digits.reverse ++ e.2) }
  | _ => x

/-- Digits are read one after the other. -/
theorem foldl_digits {part : Part} (hpart : part = .whole ∨ part = .fraction ∨ part = .exponent)
    {digits : List Nat} (h : ∀ d ∈ digits, d < 10) (x : Number) (done : List Token) :
    (digits.map digitChar).foldl step ⟨.number part x, done⟩ =
      ⟨.number part (withDigits part digits x), done⟩ := by
  induction digits generalizing x with
  | nil =>
    obtain ⟨negative, whole, fraction, exponent⟩ := x
    rcases hpart with rfl | rfl | rfl <;> simp [withDigits]
  | cons d rest ih =>
    have hd := digit?_digitChar (h d List.mem_cons_self)
    have hstep : step ⟨.number part x, done⟩ (digitChar d) =
        ⟨.number part (withDigits part [d] x), done⟩ := by
      rcases hpart with rfl | rfl | rfl <;> simp [step, stepNumber, continue?, hd, withDigits]
    rw [List.map_cons, List.foldl_cons, hstep, ih fun e he => h e (List.mem_cons_of_mem d he)]
    obtain ⟨negative, whole, fraction, exponent⟩ := x
    rcases hpart with rfl | rfl | rfl <;> simp [withDigits, Function.comp_def]

theorem start_digitChar {d : Nat} (h : d < 10) (done : List Token) :
    start (digitChar d) done =
      ⟨.number (if d = 0 then .zero else .whole) ⟨false, [d], [], none⟩, done⟩ := by
  interval_cases d <;> rfl

/-- The sign and the first digit. -/
theorem foldl_first (negative : Bool) {d : Nat} (h : d < 10) (done : List Token) :
    ((if negative then ['-'] else []) ++ [digitChar d]).foldl step ⟨.between, done⟩ =
      ⟨.number (if d = 0 then .zero else .whole) ⟨negative, [d], [], none⟩, done⟩ := by
  cases negative with
  | false => exact start_digitChar h done
  | true =>
    have hsign : step ⟨.between, done⟩ '-' = ⟨.number .sign ⟨true, [], [], none⟩, done⟩ := rfl
    rw [if_pos rfl, List.singleton_append, List.foldl_cons, hsign]
    simp [step, stepNumber, continue?, digit?_digitChar h]

/-- The sign and the digits before the point. -/
theorem foldl_whole {x : Number} (h : x.Proper) (done : List Token) :
    ∃ part, (part = .zero ∨ part = .whole) ∧
      ((if x.negative then ['-'] else []) ++ x.whole.map digitChar).foldl step ⟨.between, done⟩ =
        ⟨.number part ⟨x.negative, x.whole.reverse, [], none⟩, done⟩ := by
  rcases h.whole with hzero | hhead
  · refine ⟨.zero, .inl rfl, ?_⟩
    rw [hzero]
    exact foldl_first x.negative (by decide) done
  · have hlt := h.whole_lt
    cases hx : x.whole with
    | nil => simp [hx] at hhead
    | cons d rest =>
      rw [hx] at hlt hhead
      have hd : d ≠ 0 := hhead
      refine ⟨.whole, .inr rfl, ?_⟩
      rw [List.map_cons, List.append_cons, List.foldl_append,
        foldl_first _ (hlt d List.mem_cons_self), if_neg hd,
        foldl_digits (.inl rfl) fun e he => hlt e (List.mem_cons_of_mem d he)]
      simp [withDigits]

/-- All up to the exponent. -/
theorem foldl_stem {x : Number} (h : x.Proper) (done : List Token) :
    ∃ part, (part = .zero ∨ part = .whole ∨ part = .fraction) ∧
      x.stem.foldl step ⟨.between, done⟩ =
        ⟨.number part ⟨x.negative, x.whole.reverse, x.fraction.reverse, none⟩, done⟩ := by
  obtain ⟨part, hpart, hwhole⟩ := foldl_whole h done
  have hlt := h.fraction_lt
  rw [Number.stem, List.foldl_append, hwhole]
  cases hx : x.fraction with
  | nil => exact ⟨part, hpart.imp_right .inl, rfl⟩
  | cons d rest =>
    rw [hx] at hlt
    have hpoint (y : Number) :
        step ⟨.number part y, done⟩ '.' = ⟨.number .point y, done⟩ := by
      rcases hpart with rfl | rfl <;> rfl
    refine ⟨.fraction, .inr (.inr rfl), ?_⟩
    rw [if_neg (List.cons_ne_nil d rest), List.foldl_cons, hpoint, List.map_cons, List.foldl_cons]
    simp only [step, stepNumber, continue?, digit?_digitChar (hlt d List.mem_cons_self)]
    rw [foldl_digits (.inr (.inl rfl)) fun e he => hlt e (List.mem_cons_of_mem d he)]
    simp [withDigits]

/-- The exponent. -/
theorem foldl_exponent {part : Part} (hpart : part = .zero ∨ part = .whole ∨ part = .fraction)
    {minus : Bool} {digits : List Nat} {text : List Char}
    (htext : Number.ExponentText (some (minus, digits)) text) (hne : digits ≠ [])
    (h : ∀ d ∈ digits, d < 10) (x : Number) (done : List Token) :
    text.foldl step ⟨.number part x, done⟩ =
      ⟨.number .exponent { x with exponent := some (minus, digits.reverse) }, done⟩ := by
  obtain ⟨d, rest, rfl⟩ := List.exists_cons_of_ne_nil hne
  cases htext with | @some mark _ sign _ hmark hsign
  have hstart : step ⟨.number part x, done⟩ mark = ⟨.number .mark x, done⟩ := by
    rcases hpart with rfl | rfl | rfl <;> rcases hmark with rfl | rfl <;> rfl
  have hfirst : (sign ++ [digitChar d]).foldl step ⟨.number .mark x, done⟩ =
      ⟨.number .exponent { x with exponent := some (minus, [d]) }, done⟩ := by
    have hd := digit?_digitChar (h d List.mem_cons_self)
    cases hsign with
    | none => simp [step, stepNumber, continue?, hd]
    | plus =>
      have hplus : step ⟨.number .mark x, done⟩ '+' =
          ⟨.number .exponentSign { x with exponent := some (false, []) }, done⟩ := rfl
      rw [List.singleton_append, List.foldl_cons, hplus]
      simp [step, stepNumber, continue?, hd]
    | minus =>
      have hminus : step ⟨.number .mark x, done⟩ '-' =
          ⟨.number .exponentSign { x with exponent := some (true, []) }, done⟩ := rfl
      rw [List.singleton_append, List.foldl_cons, hminus]
      simp [step, stepNumber, continue?, hd]
  rw [List.foldl_cons, hstart, List.map_cons, List.append_cons, List.foldl_append, hfirst,
    foldl_digits (.inr (.inr rfl)) fun e he => h e (List.mem_cons_of_mem d he)]
  simp [withDigits]

/-- **A number is read** from what writes it. -/
theorem settled_written {x : Number} {text : List Char} (h : x.Written text) (done : List Token) :
    Settled (.number x :: done) (text.foldl step ⟨.between, done⟩) := by
  obtain ⟨hproper, exponent, hexponent, rfl⟩ := h
  obtain ⟨part, hpart, hstem⟩ := foldl_stem hproper done
  obtain ⟨negative, whole, fraction, exponent?⟩ := x
  rw [List.foldl_append, hstem]
  cases exponent? with
  | none =>
    cases hexponent
    refine .number (by rcases hpart with rfl | rfl | rfl <;> rfl) ?_
    simp [finished]
  | some e =>
    obtain ⟨hne, hlt⟩ := hproper.exponent e rfl
    rw [foldl_exponent hpart hexponent hne hlt]
    refine .number rfl ?_
    simp [finished]

/-! ## Strings are read -/

theorem escaped?_eq_some_iff {e c : Char} : escaped? e = some c ↔ (e, c) ∈ shortEscapes := by
  constructor
  · intro h
    unfold escaped? at h
    split_ifs at h with hself <;> cases h
    · rcases hself with rfl | rfl | rfl <;> decide
    all_goals subst_vars; decide
  · intro h
    simp only [shortEscapes, List.mem_cons, Prod.mk.injEq, List.not_mem_nil, or_false] at h
    rcases h with ⟨rfl, rfl⟩ | ⟨rfl, rfl⟩ | ⟨rfl, rfl⟩ | ⟨rfl, rfl⟩ | ⟨rfl, rfl⟩ | ⟨rfl, rfl⟩ |
      ⟨rfl, rfl⟩ | ⟨rfl, rfl⟩ <;> rfl

/-- The digits of a code are read one after the other. -/
theorem foldl_hexText {k : Nat} {text : List Char} (h : HexText k text) (hlength : text.length ≤ 3)
    (draft : Draft) (high : Option Nat) (done : List Token) :
    text.foldl step ⟨.code draft high 0 0, done⟩ =
      ⟨.code draft high text.length k, done⟩ := by
  induction h with
  | nil => rfl
  | @snoc k d c text h hd ih =>
    rw [List.length_append, List.length_singleton] at hlength
    have hne : text.length ≠ 3 := by omega
    rw [List.foldl_append, ih (by omega)]
    simp [step, stepCode, hd, hne]

theorem foldl_codeText {unit : Nat} {text : List Char} (h : CodeText unit text) (draft : Draft)
    (high : Option Nat) (done : List Token) :
    text.foldl step ⟨.code draft high 0 0, done⟩ = ⟨endCode draft high unit, done⟩ := by
  obtain ⟨h, hlength⟩ := h
  cases h with
  | nil => cases hlength
  | @snoc k d c text h hd =>
    have hthree : text.length = 3 := by simpa using hlength
    rw [List.foldl_append, foldl_hexText h hthree.le]
    simp [step, stepCode, hd, hthree]

/-- **A character is read** from what writes it. -/
theorem foldl_charText {c : Char} {text : List Char} (h : CharText c text) (draft : Draft)
    (done : List Token) :
    text.foldl step ⟨.text draft, done⟩ = ⟨.text (draft.push c), done⟩ := by
  cases h with
  | plain hquote hbackslash hcontrol =>
    simp [step, stepText, hquote, hbackslash, Nat.not_lt.2 hcontrol]
  | @short e _ h =>
    have hu : e ≠ 'u' := by
      rintro rfl
      simp [shortEscapes] at h
    simp [step, stepText, stepEscape, escaped?_eq_some_iff.2 h, hu]
  | code h hhigh hlow =>
    have hstart : step (step ⟨.text draft, done⟩ '\\') 'u' = ⟨.code draft none 0 0, done⟩ := rfl
    rw [List.foldl_cons, List.foldl_cons, hstart, foldl_codeText h]
    simp [endCode, hhigh, hlow]
  | @pair high low first second hfirst hhigh hsecond hlow =>
    have hstart : step (step ⟨.text draft, done⟩ '\\') 'u' = ⟨.code draft none 0 0, done⟩ := rfl
    have hhalf : step (step ⟨.half draft high, done⟩ '\\') 'u' =
        ⟨.code draft (some high) 0 0, done⟩ := rfl
    have hend : endCode draft none high = .half draft high := by simp [endCode, hhigh]
    rw [List.cons_append, List.cons_append, List.foldl_cons, List.foldl_cons, hstart,
      List.foldl_append, foldl_codeText hfirst, hend, List.foldl_cons, List.foldl_cons, hhalf,
      foldl_codeText hsecond]
    simp [endCode, hlow]

theorem foldl_charsText {chars text : List Char} (h : CharsText chars text) (draft : Draft)
    (done : List Token) :
    text.foldl step ⟨.text draft, done⟩ =
      ⟨.text { draft with chars := chars.reverse ++ draft.chars }, done⟩ := by
  induction h generalizing draft with
  | nil => rfl
  | cons hc hrest ih =>
    rw [List.foldl_append, foldl_charText hc, ih]
    simp [Draft.push]

/-! ## Texts are split -/

/-- A token that has been written makes no difference to what follows it. -/
theorem finish_foldl_written {t : Token} {text chars : List Char} (ht : t.Written text)
    (hends : ∀ x, t = .number x → EndsNumber chars) (done : List Token) :
    finish ((text ++ chars).foldl step ⟨.between, done⟩) =
      finish (chars.foldl step ⟨.between, t :: done⟩) := by
  rw [List.foldl_append]
  cases ht with
  | word h =>
    have hword : t.chars.foldl step ⟨.between, done⟩ = ⟨.between, t :: done⟩ := by
      cases t with
      | number x => exact h.elim
      | string s => exact h.elim
      | invalid => exact h.elim
      | bool b => cases b <;> rfl
      | _ => rfl
    rw [hword]
  | number h => exact finish_foldl_of_settled (settled_written h done) (hends _ rfl)
  | @string s text h =>
    have hquote : step ⟨.between, done⟩ '"' = ⟨.text ⟨[], true⟩, done⟩ := rfl
    rw [List.foldl_cons, List.foldl_append, hquote, foldl_charsText h]
    simp [step, stepText, Draft.token]

theorem finish_of_spelled {ts : List Token} {chars : List Char} (h : Spelled ts chars)
    (done : List Token) :
    finish (chars.foldl step ⟨.between, done⟩) = done.reverse ++ ts := by
  induction h generalizing done with
  | nil => rw [List.append_nil]; rfl
  | space hc rest ih =>
    have hstep : step ⟨.between, done⟩ _ = ⟨.between, done⟩ := if_pos hc
    rw [List.foldl_cons, hstep, ih]
  | token ht hends rest ih =>
    rw [finish_foldl_written ht hends, ih, List.reverse_cons, List.append_assoc]
    rfl

/-- **Splitting a text gives the tokens that it spells.** -/
theorem tokens_of_spelled {ts : List Token} {chars : List Char} (h : Spelled ts chars) :
    tokens chars = ts :=
  finish_of_spelled h []

end Lexer

/-! ## What a program writes -/

theorem digitsOf_lt (k : Nat) : ∀ d ∈ digitsOf k, d < 10 := by
  fun_induction digitsOf k with
  | case1 k h => simpa using h
  | case2 k h ih =>
    intro d hd
    rcases List.mem_append.1 hd with hd | hd
    · exact ih d hd
    · rw [List.mem_singleton.1 hd]
      exact Nat.mod_lt k (by decide)

/-- A number above zero does not start with a zero. -/
theorem headD_digitsOf_ne_zero {k : Nat} (h : 0 < k) : (digitsOf k).headD 0 ≠ 0 := by
  fun_induction digitsOf k with
  | case1 k _ => exact Nat.pos_iff_ne_zero.1 h
  | case2 k hk ih =>
    have hhead := ih (by omega)
    cases hd : digitsOf (k / 10) with
    | nil => simp [hd] at hhead
    | cons d rest => simpa [hd] using hhead

theorem Number.proper_ofNat (k : Nat) : (Number.ofNat k).Proper where
  whole := by
    rcases Nat.eq_zero_or_pos k with rfl | hk
    · exact .inl (by simp [Number.ofNat, digitsOf])
    · exact .inr (headD_digitsOf_ne_zero hk)
  whole_lt := digitsOf_lt k
  fraction_lt := List.forall_mem_nil _
  exponent := by simp [Number.ofNat]

theorem hexDigit?_hexChar {k : Nat} (h : k < 16) : hexDigit? (hexChar k) = some k := by
  have all : ∀ k < 16, hexDigit? (hexChar k) = some k := by decide
  exact all k h

/-- The code of a control character. -/
theorem codeText_of_lt {k : Nat} (h : k < 32) :
    CodeText k ['0', '0', hexChar (k / 16), hexChar (k % 16)] := by
  have hzero : hexDigit? '0' = some 0 := rfl
  have hunit : ((0 * 16 + 0) * 16 + 0) * 16 + k / 16 = k / 16 := by omega
  have htext := ((((HexText.nil.snoc hzero).snoc hzero).snoc
    (hexDigit?_hexChar (k := k / 16) (by omega))).snoc (hexDigit?_hexChar (k := k % 16) (by omega)))
  rw [hunit, Nat.div_add_mod'] at htext
  exact ⟨htext, rfl⟩

/-- A character is written as a program writes it. -/
theorem charText_escape (c : Char) : CharText c (escape c) := by
  unfold escape
  split_ifs with h1 h2 h3 h4 h5 h6 h7 h8
  all_goals try (subst_vars; exact .short (by decide))
  · have hhigh : isHigh c.toNat = false := by
      simp only [isHigh, Bool.and_eq_false_iff, decide_eq_false_iff_not]
      omega
    have hlow : isLow c.toNat = false := by
      simp only [isLow, Bool.and_eq_false_iff, decide_eq_false_iff_not]
      omega
    have hcode := CharText.code (codeText_of_lt h8) hhigh hlow
    rwa [Char.ofNat_toNat] at hcode
  · exact .plain h1 h2 (Nat.not_lt.1 h8)

theorem charsText_flatMap_escape (chars : List Char) : CharsText chars (chars.flatMap escape) := by
  induction chars with
  | nil => exact .nil
  | cons c rest ih => exact .cons (charText_escape c) ih

namespace Lexer

/-- A token that is written and ends by itself. -/
def IsFixed : Token → Prop
  | .number _ | .invalid | .string none => False
  | _ => True

/-- What a program writes for a token that ends by itself spells it. -/
theorem Spelled.fixed {t : Token} {ts : List Token} {chars : List Char} (ht : IsFixed t)
    (rest : Spelled ts chars) : Spelled (t :: ts) (t.chars ++ chars) := by
  refine .token ?_ ?_ rest
  · cases t with
    | number x => exact ht.elim
    | invalid => exact ht.elim
    | string s =>
      cases s with
      | none => exact ht.elim
      | some s => exact .string (charsText_flatMap_escape s.toList)
    | _ => exact .word trivial
  · rintro x rfl
    exact ht.elim

/-- What a program writes for a natural number spells it. -/
theorem Spelled.nat {k : Nat} {ts : List Token} {chars : List Char} (hends : EndsNumber chars)
    (rest : Spelled ts chars) :
    Spelled (.number (.ofNat k) :: ts) ((Number.ofNat k).chars ++ chars) := by
  refine .token (.number ⟨Number.proper_ofNat k, [], .none, ?_⟩) (fun _ _ => hends) rest
  rw [List.append_nil]
  exact List.append_nil _

end Lexer

end Custody.Json
