import Phrasebook.Binary64.Reading
import Phrasebook.Proofs.Decimal.Layout
import Phrasebook.Proofs.Decimal.Significant

/-!
# General notation

A written number is read back as the digits that were written (`read?_pointed`).  Dropping the zeros that end its
fraction changes neither what is read nor the exponent behind it.  So a general layout shows the number rounded to its
significant digits, with an exponent exactly where the rounded number asks for one (`exists_showsGeneral`).
-/

namespace Phrasebook.Decimal

open Rounding

variable {n places : Nat} {whole fraction exponent : List Char}

/-! ### Written digits -/

/-- Digits before and after a point, which is left out if nothing is behind it. -/
def pointed (whole fraction : List Char) : List Char :=
  whole ++ if fraction = [] then [] else '.' :: fraction

/-- The digits of `n`, with the last `places` of them behind the point. -/
structure IsWritten (n places : Nat) (whole fraction : List Char) : Prop where
  nonempty : whole ≠ []
  length_fraction : fraction.length = places
  digits : ∃ zeros, whole ++ fraction = List.replicate zeros '0' ++ Nat.toDigits 10 n

theorem exists_isWritten (n places : Nat) :
    ∃ whole fraction, positional ⟨n, -places⟩ = pointed whole fraction ∧ IsWritten n places whole fraction := by
  unfold positional
  dsimp only
  split
  · obtain rfl : places = 0 := by omega
    exact ⟨Nat.toDigits 10 n, [], by simp [pointed], ⟨Nat.toDigits_ne_nil, rfl, 0, by simp⟩⟩
  · rw [neg_neg, Int.toNat_natCast]
    generalize hpadded :
      List.replicate (places + 1 - (Nat.toDigits 10 n).length) '0' ++ Nat.toDigits 10 n = padded
    have hlength : places < padded.length := by
      rw [← hpadded, List.length_append, List.length_replicate]
      omega
    have hfraction : (padded.drop (padded.length - places)).length = places := by
      rw [List.length_drop]
      omega
    refine ⟨padded.take (padded.length - places), padded.drop (padded.length - places), ?_, ?_, hfraction,
      places + 1 - (Nat.toDigits 10 n).length, ?_⟩
    · rw [pointed, if_neg]
      rintro hnil
      rw [hnil] at hfraction
      simp only [List.length_nil] at hfraction
      omega
    · rintro hnil
      have hzero := congrArg List.length hnil
      simp only [List.length_take, List.length_nil] at hzero
      omega
    · rw [List.take_append_drop, hpadded]

theorem IsWritten.isDigit (h : IsWritten n places whole fraction) : ∀ c ∈ whole ++ fraction, c.isDigit = true := by
  obtain ⟨zeros, hdigits⟩ := h.digits
  intro c hc
  rw [hdigits] at hc
  exact isDigit_of_mem_padded hc

theorem IsWritten.ofDigits_eq (h : IsWritten n places whole fraction) : ofDigits (whole ++ fraction) = n := by
  obtain ⟨zeros, hdigits⟩ := h.digits
  rw [hdigits, ofDigits, Nat.ofDigitChars_append, Nat.ofDigitChars_replicate_zero, Nat.mul_zero,
    Nat.ofDigitChars_ten_toDigits]

/-- The digits of a positive number do not start with a zero. -/
theorem exists_toDigits_eq_cons (hn : 0 < n) : ∃ c rest, Nat.toDigits 10 n = c :: rest ∧ c ≠ '0' := by
  induction n using Nat.strongRecOn with
  | ind n ih =>
    rw [Nat.toDigits_eq_if (by omega)]
    split
    · exact ⟨n.digitChar, [], rfl, by rw [ne_eq, Nat.digitChar_eq_zero]; omega⟩
    · obtain ⟨c, rest, hdigits, hc⟩ := ih (n / 10) (Nat.div_lt_self hn (by omega)) (by omega)
      exact ⟨c, rest ++ [(n % 10).digitChar], by rw [hdigits, List.cons_append], hc⟩

theorem IsWritten.dropWhile_eq (h : IsWritten n places whole fraction) (hn : 0 < n) :
    (whole ++ fraction).dropWhile (· == '0') = Nat.toDigits 10 n := by
  obtain ⟨zeros, hdigits⟩ := h.digits
  obtain ⟨c, rest, hsplit, hc⟩ := exists_toDigits_eq_cons hn
  rw [hdigits, List.dropWhile_append_of_pos fun d hd => by rw [List.eq_of_mem_replicate hd]; decide, hsplit]
  exact List.dropWhile_cons_of_neg (by simpa using hc)

/-! ### Reading -/

/-- What may stand behind a written number: nothing, or an exponent. -/
inductive EndsWith : List Char → Int → Prop
  | nothing : EndsWith [] 0
  | exponent {mark : Char} {text : List Char} {e : Int} (mark_eq : mark = 'e' ∨ mark = 'E')
      (value : readInt? text = some e) : EndsWith (mark :: text) e

theorem EndsWith.head?_not_digit {text : List Char} {e : Int} (h : EndsWith text e) :
    ∀ c ∈ text.head?, c.isDigit = false := by
  cases h with
  | nothing => exact nofun
  | exponent hmark =>
    rintro c hc
    obtain rfl := Option.some.inj hc
    rcases hmark with rfl | rfl <;> decide

/-- A run of characters with something else behind it is what is taken of the text. -/
theorem span_eq {p : Char → Bool} {front rest : List Char} (h : ∀ c ∈ front, p c = true)
    (hrest : ∀ c ∈ rest.head?, p c = false) :
    (front ++ rest).takeWhile p = front ∧ (front ++ rest).dropWhile p = rest := by
  rw [List.takeWhile_append_of_pos h, List.dropWhile_append_of_pos h]
  cases rest with
  | nil => simp
  | cons c rest =>
    have hc : ¬ p c = true := by simp [hrest c rfl]
    rw [List.takeWhile_cons_of_neg hc, List.dropWhile_cons_of_neg hc, List.append_nil]
    exact ⟨rfl, rfl⟩

/-- The digits of a written number are read, and its exponent. -/
theorem read?_pointed {e : Int} (hne : whole ≠ []) (h : ∀ c ∈ whole ++ fraction, c.isDigit = true)
    (hexponent : EndsWith exponent e) :
    read? (pointed whole fraction ++ exponent) = some ⟨ofDigits (whole ++ fraction), e - fraction.length⟩ := by
  obtain ⟨hwhole, hfraction⟩ := List.forall_mem_append.1 h
  by_cases hnil : fraction = []
  · subst hnil
    obtain ⟨htake, hdrop⟩ := span_eq hwhole hexponent.head?_not_digit
    rw [pointed, if_pos rfl, List.append_nil, read?]
    dsimp only
    rw [htake, hdrop]
    cases hexponent with
    | nothing => simp [hne]
    | exponent hmark hvalue => rcases hmark with rfl | rfl <;> simp [hne, hvalue]
  · obtain ⟨htake, hdrop⟩ := @span_eq _ _ ('.' :: (fraction ++ exponent)) hwhole (by simp)
    obtain ⟨htake', hdrop'⟩ := span_eq hfraction hexponent.head?_not_digit
    have hdigits : whole ++ fraction ≠ [] := List.append_ne_nil_of_left_ne_nil hne _
    rw [pointed, if_neg hnil, List.append_assoc, List.cons_append, read?]
    simp only [htake, hdrop, htake', hdrop', if_neg hdigits]
    cases hexponent with
    | nothing => rfl
    | exponent hmark hvalue =>
      dsimp only
      rw [if_pos hmark, hvalue, Option.bind_some]

/-! ### Trailing zeros -/

/-- The digits without the zeros that end them. -/
def withoutZeros (fraction : List Char) : List Char :=
  (fraction.reverse.dropWhile (· == '0')).reverse

theorem ofDigits_append_zeros (digits : List Char) (zeros : Nat) :
    ofDigits (digits ++ List.replicate zeros '0') = ofDigits digits * 10 ^ zeros := by
  rw [ofDigits, Nat.ofDigitChars_append, Nat.ofDigitChars_replicate_zero, Nat.mul_comm]
  rfl

theorem exists_eq_withoutZeros_append (fraction : List Char) :
    ∃ zeros, fraction = withoutZeros fraction ++ List.replicate zeros '0' := by
  have hzeros : ∀ c ∈ fraction.reverse.takeWhile (· == '0'), c = '0' :=
    fun c hc => eq_of_beq (List.all_eq_true.1 List.all_takeWhile c hc)
  refine ⟨(fraction.reverse.takeWhile (· == '0')).length, ?_⟩
  rw [← List.reverse_inj, withoutZeros, List.reverse_append, List.reverse_reverse, List.reverse_replicate,
    ← List.eq_replicate_length.2 hzeros, List.takeWhile_append_dropWhile]

theorem getLast?_withoutZeros (fraction : List Char) : ∀ c ∈ (withoutZeros fraction).getLast?, c ≠ '0' := by
  intro c hc
  rw [withoutZeros, List.getLast?_reverse] at hc
  have hhead := List.head?_dropWhile_not (· == '0') fraction.reverse
  rw [hc] at hhead
  simpa using hhead

private theorem dropWhile_append_cons {p : Char → Bool} (front : List Char) {c : Char} (hc : p c = false)
    (rest : List Char) : (front ++ c :: rest).dropWhile p = front.dropWhile p ++ c :: rest := by
  rw [List.dropWhile_append]
  split
  · next hempty =>
    rw [List.isEmpty_iff.1 hempty, List.nil_append]
    exact List.dropWhile_cons_of_neg (by simp [hc])
  · rfl

private theorem dropWhile_point {digits : List Char} (h : ∀ c ∈ digits, c.isDigit = true) :
    digits.dropWhile (· == '.') = digits := by
  cases digits with
  | nil => rfl
  | cons c digits =>
    refine List.dropWhile_cons_of_neg ?_
    rw [beq_iff_eq]
    rintro rfl
    exact absurd (h _ List.mem_cons_self) (by decide)

/-- The zeros that end the fraction are dropped, and the point with them if there is nothing else behind it. -/
theorem dropTrailingZeros_pointed (h : ∀ c ∈ whole ++ fraction, c.isDigit = true) :
    dropTrailingZeros (pointed whole fraction) = pointed whole (withoutZeros fraction) := by
  obtain ⟨hwhole, hfraction⟩ := List.forall_mem_append.1 h
  by_cases hnil : fraction = []
  · subst hnil
    have hpoint : '.' ∉ whole := fun hmem => absurd (hwhole _ hmem) (by decide)
    have hplain : pointed whole [] = whole := List.append_nil whole
    rw [show withoutZeros [] = [] from rfl, hplain, dropTrailingZeros, if_neg]
    simpa using hpoint
  · have hreverse : (whole ++ '.' :: fraction).reverse = fraction.reverse ++ '.' :: whole.reverse := by simp
    have hwhole' : ∀ c ∈ whole.reverse, c.isDigit = true := fun c hc => hwhole c (List.mem_reverse.1 hc)
    have hkept : ∀ c ∈ fraction.reverse.dropWhile (· == '0'), c.isDigit = true :=
      fun c hc => hfraction c (List.mem_reverse.1 ((List.dropWhile_suffix _).subset hc))
    rw [pointed, if_neg hnil, dropTrailingZeros, if_pos (by simp), hreverse, dropWhile_append_cons _ (by decide),
      pointed, withoutZeros]
    rcases hcons : fraction.reverse.dropWhile (· == '0') with _ | ⟨c, kept⟩
    · rw [List.nil_append, List.dropWhile_cons_of_pos (by decide), dropWhile_point hwhole']
      simp
    · have hc : ¬ (c == '.') = true := by
        rw [beq_iff_eq]
        rintro rfl
        exact absurd (hkept _ (hcons ▸ List.mem_cons_self)) (by decide)
      rw [List.cons_append, List.dropWhile_cons_of_neg (p := (· == '.')) hc]
      simp

/-! ### Exponents -/

/-- An exponent: a mark, a sign, and at least two digits. -/
structure IsExponent (upper : Bool) (place : Int) (text : List Char) : Prop where
  written : ∃ digits, text = (if upper then 'E' else 'e') :: (if place < 0 then '-' else '+') :: digits ∧
    2 ≤ digits.length ∧ (∀ c ∈ digits, c.isDigit = true) ∧ ofDigits digits = place.natAbs

theorem IsExponent.endsWith {upper : Bool} {place : Int} {text : List Char} (h : IsExponent upper place text) :
    EndsWith text place := by
  obtain ⟨digits, rfl, hlength, hdigits, hvalue⟩ := h.written
  have haccepted : ¬ (digits = [] ∨ digits.any (! ·.isDigit) = true) := by
    have hne : digits ≠ [] := List.ne_nil_of_length_pos (by omega)
    simpa [hne] using hdigits
  refine .exponent (by cases upper <;> simp) ?_
  split
  · next hnegative =>
    have hread : readInt? ('-' :: digits) = some (-(ofDigits digits : Int)) := if_neg haccepted
    rw [hread, hvalue]
    exact congrArg some (by omega)
  · next hnegative =>
    have hread : readInt? ('+' :: digits) = some (ofDigits digits : Int) := if_neg haccepted
    rw [hread, hvalue]
    exact congrArg some (by omega)

theorem exists_exponential_isExponent (x : Rat) (places : Nat) (upper : Bool) :
    ∃ text, exponential x places upper = positional ⟨(significant x places).1, -places⟩ ++ text ∧
      IsExponent upper (significant x places).2 text := by
  unfold exponential
  generalize significant x places = written
  refine ⟨_, rfl, ⟨_, rfl, ?_, fun _ => isDigit_of_mem_padded, ?_⟩⟩
  · rw [List.length_append, List.length_replicate]
    omega
  · rw [ofDigits, Nat.ofDigitChars_append, Nat.ofDigitChars_replicate_zero, Nat.mul_zero,
      Nat.ofDigitChars_ten_toDigits]

/-! ### General layout -/

/-- An exponent is written if the first digit stands too far behind the point or too far before it. -/
structure IsNotation (precision : Nat) (upper : Bool) (place : Int) (exponent : List Char) : Prop where
  exponential : place < -4 ∨ (precision : Int) ≤ place → IsExponent upper place exponent
  positional : ¬ (place < -4 ∨ (precision : Int) ≤ place) → exponent = []

/-- The layout is made of `n` with `places` decimals and an exponent `e`; together they are the rounded number. -/
structure IsLaidOut (x : Rat) (precision : Nat) (upper : Bool) (n places : Nat) (place e : Int)
    (whole fraction exponent : List Char) : Prop where
  written : IsWritten n places whole fraction
  rounded : IsRounded 10 x precision (n * (10 : Rat) ^ (e - places))
  hasPlace : HasPlace 10 (n * (10 : Rat) ^ (e - places)) place
  endsWith : EndsWith exponent e
  isNotation : IsNotation precision upper place exponent
  digits : x ≠ 0 → 0 < n ∧ (Nat.toDigits 10 n).length = precision

private theorem general_with_zeros (x : Rat) (places : Nat) (upper : Bool) :
    general x (places + 1) upper true =
      if (significant x places).2 < -4 ∨ ((places + 1 : Nat) : Int) ≤ (significant x places).2 then
        exponential x places upper
      else fixed x (places - (significant x places).2).toNat := by
  unfold general
  dsimp only
  rw [Nat.max_eq_left (Nat.le_add_left 1 places), Nat.add_sub_cancel, if_pos rfl, Nat.cast_succ, add_sub_cancel_right]

private theorem exists_isLaidOut_zero (places : Nat) (upper : Bool) : ∃ whole fraction,
    general 0 (places + 1) upper true = pointed whole fraction ∧
      IsLaidOut 0 (places + 1) upper 0 places 0 0 whole fraction [] := by
  obtain ⟨whole, fraction, hwritten, h⟩ := exists_isWritten 0 places
  have hround : halfEven 0 = 0 := halfEven_intCast 0
  have hfixed : fixed 0 places = positional ⟨0, -places⟩ := by
    rw [fixed, zero_mul, hround]
    rfl
  have hnear : ¬ ((0 : Int) < -4 ∨ ((places + 1 : Nat) : Int) ≤ 0) := by omega
  refine ⟨whole, fraction, ?_, h, ⟨0, 0, .inl ⟨rfl, rfl⟩, ?_, ?_⟩, .inl ⟨?_, rfl⟩, .nothing,
    ⟨fun hfar => absurd hfar hnear, fun _ => rfl⟩, fun hne => absurd rfl hne⟩
  · rw [general_with_zeros, show significant 0 places = (0, 0) from rfl, if_neg hnear, Int.sub_zero, Int.toNat_natCast,
      hfixed, hwritten]
  · rw [zero_div]
    exact halfEven_eq_iff.1 hround
  · rw [Nat.cast_zero, Int.cast_zero, zero_mul, zero_mul]
  · rw [Nat.cast_zero, zero_mul]

private theorem exists_isLaidOut_pos {x : Rat} (hx : 0 < x) (places : Nat) (upper : Bool) :
    ∃ n decimals place e whole fraction exponent,
      general x (places + 1) upper true = pointed whole fraction ++ exponent ∧
        IsLaidOut x (places + 1) upper n decimals place e whole fraction exponent := by
  have hsignificant := isSignificant hx places
  have hfixed := @halfEven_eq_significant x places hx
  have hexponential := exists_exponential_isExponent x places upper
  rw [general_with_zeros]
  generalize (significant x places).1 = n at *
  generalize (significant x places).2 = place at *
  have hdigits : 0 < n ∧ (Nat.toDigits 10 n).length = places + 1 :=
    ⟨lt_of_lt_of_le (Nat.pow_pos (by omega)) hsignificant.least,
      (length_toDigits_eq_iff (by omega)).2 ⟨hsignificant.less, .inr hsignificant.least⟩⟩
  split
  · next hfar =>
    obtain ⟨text, heq, htext⟩ := hexponential
    obtain ⟨whole, fraction, hwritten, h⟩ := exists_isWritten n places
    exact ⟨n, places, place, place, whole, fraction, text, by rw [heq, hwritten], h, hsignificant.rounded,
      hsignificant.hasPlace, htext.endsWith, ⟨fun _ => htext, fun hnear => absurd hfar hnear⟩, fun _ => hdigits⟩
  · next hnear =>
    obtain ⟨decimals, hdecimals⟩ : ∃ decimals : Nat, (decimals : Int) = places - place :=
      ⟨(places - place).toNat, by omega⟩
    obtain ⟨whole, fraction, hwritten, h⟩ := exists_isWritten n decimals
    have hvalue : (n : Rat) * (10 : Rat) ^ (0 - decimals : Int) = n * (10 : Rat) ^ (place - places) := by
      rw [hdecimals, zero_sub, neg_sub]
    refine ⟨n, decimals, place, 0, whole, fraction, [], ?_, h, ?_, ?_, .nothing,
      ⟨fun hfar => absurd hfar hnear, fun _ => rfl⟩, fun _ => hdigits⟩
    · rw [← hdecimals, Int.toNat_natCast, fixed, hfixed hdecimals, Int.toNat_natCast, hwritten, List.append_nil]
    · rw [hvalue]
      exact hsignificant.rounded
    · rw [hvalue]
      exact hsignificant.hasPlace

theorem exists_isLaidOut {x : Rat} (hx : 0 ≤ x) (precision : Nat) (upper : Bool) :
    ∃ n decimals place e whole fraction exponent,
      general x precision upper true = pointed whole fraction ++ exponent ∧
        IsLaidOut x (max precision 1) upper n decimals place e whole fraction exponent := by
  obtain ⟨places, hplaces⟩ : ∃ places, max precision 1 = places + 1 := ⟨max precision 1 - 1, by omega⟩
  have hgeneral : general x precision upper true = general x (places + 1) upper true := by
    unfold general
    rw [hplaces, Nat.max_eq_left (Nat.le_add_left 1 places)]
  rw [hgeneral, hplaces]
  rcases hx.eq_or_lt with rfl | hpos
  · obtain ⟨whole, fraction, hwritten, h⟩ := exists_isLaidOut_zero places upper
    exact ⟨0, places, 0, 0, whole, fraction, [], by rw [hwritten, List.append_nil], h⟩
  · exact exists_isLaidOut_pos hpos places upper

/-- The text of a number in general notation: it denotes the number rounded to `precision` significant digits. -/
structure ShowsGeneral (x : Rat) (precision : Nat) (upper keepZeros : Bool) (r : Rat) (place : Int)
    (mantissa exponent : List Char) : Prop where
  rounded : IsRounded 10 x precision r
  hasPlace : HasPlace 10 r place
  denotes : (read? (mantissa ++ exponent)).map toRat = some r
  chars : ∀ c ∈ mantissa, c.isDigit = true ∨ c = '.'
  isNotation : IsNotation precision upper place exponent
  no_trailing_zero : keepZeros = false → '.' ∈ mantissa → ∃ c ∈ mantissa.getLast?, c ≠ '0' ∧ c ≠ '.'
  all_digits : keepZeros = true → x ≠ 0 → ((mantissa.filter (· != '.')).dropWhile (· == '0')).length = precision

private theorem filter_pointed (h : ∀ c ∈ whole ++ fraction, c.isDigit = true) :
    (pointed whole fraction).filter (· != '.') = whole ++ fraction := by
  have hkept : ∀ c ∈ whole ++ fraction, (c != '.') = true := by
    intro c hc
    rw [bne_iff_ne]
    rintro rfl
    exact absurd (h _ hc) (by decide)
  obtain ⟨hwhole, hfraction⟩ := List.forall_mem_append.1 hkept
  rw [pointed, List.filter_append, List.filter_eq_self.2 hwhole]
  split
  · next hnil => rw [hnil, List.filter_nil]
  · rw [List.filter_cons_of_neg (by simp), List.filter_eq_self.2 hfraction]

private theorem mem_pointed (h : ∀ c ∈ whole ++ fraction, c.isDigit = true) :
    ∀ c ∈ pointed whole fraction, c.isDigit = true ∨ c = '.' := by
  obtain ⟨hwhole, hfraction⟩ := List.forall_mem_append.1 h
  intro c hc
  rcases List.mem_append.1 hc with hc | hc
  · exact .inl (hwhole c hc)
  · split at hc
    · cases hc
    · exact (List.mem_cons.1 hc).symm.imp_left (hfraction c)

private theorem general_without_zeros {x : Rat} {precision : Nat} {upper : Bool} {e : Int}
    (hgeneral : general x precision upper true = pointed whole fraction ++ exponent)
    (h : ∀ c ∈ whole ++ fraction, c.isDigit = true) (hexponent : EndsWith exponent e) :
    general x precision upper false = pointed whole (withoutZeros fraction) ++ exponent := by
  have hedit : general x precision upper false =
      dropTrailingZeros ((general x precision upper true).takeWhile fun c => ! (c == 'e' || c == 'E')) ++
        (general x precision upper true).dropWhile fun c => ! (c == 'e' || c == 'E') := rfl
  -- The text is cut where the exponent starts, and only what is in front of it loses zeros.
  have hmantissa : ∀ c ∈ pointed whole fraction, (! (c == 'e' || c == 'E')) = true := by
    intro c hc
    rcases mem_pointed h c hc with hdigit | rfl
    · rw [Bool.not_eq_true', Bool.or_eq_false_iff, beq_eq_false_iff_ne, beq_eq_false_iff_ne]
      refine ⟨?_, ?_⟩ <;> rintro rfl <;> exact absurd hdigit (by decide)
    · rfl
  have hmark : ∀ c ∈ exponent.head?, (! (c == 'e' || c == 'E')) = false := by
    cases hexponent with
    | nothing => exact nofun
    | exponent hmark =>
      rintro c hc
      obtain rfl := Option.some.inj hc
      rcases hmark with rfl | rfl <;> rfl
  obtain ⟨htake, hdrop⟩ := span_eq hmantissa hmark
  rw [hedit, hgeneral, htake, hdrop, dropTrailingZeros_pointed h]

variable {x : Rat} {precision decimals : Nat} {upper : Bool} {place e : Int}

private theorem IsLaidOut.shows_with_zeros
    (h : IsLaidOut x precision upper n decimals place e whole fraction exponent) :
    ShowsGeneral x precision upper true (n * (10 : Rat) ^ (e - decimals)) place (pointed whole fraction) exponent where
  rounded := h.rounded
  hasPlace := h.hasPlace
  denotes := by
    rw [read?_pointed h.written.nonempty h.written.isDigit h.endsWith, h.written.ofDigits_eq, h.written.length_fraction]
    rfl
  chars := mem_pointed h.written.isDigit
  isNotation := h.isNotation
  no_trailing_zero := nofun
  all_digits := by
    intro _ hx
    obtain ⟨hn, hlength⟩ := h.digits hx
    rw [filter_pointed h.written.isDigit, h.written.dropWhile_eq hn, hlength]

private theorem IsLaidOut.shows_without_zeros
    (h : IsLaidOut x precision upper n decimals place e whole fraction exponent) :
    ShowsGeneral x precision upper false (n * (10 : Rat) ^ (e - decimals)) place (pointed whole (withoutZeros fraction))
      exponent := by
  obtain ⟨zeros, hzeros⟩ := exists_eq_withoutZeros_append fraction
  generalize hkept : withoutZeros fraction = kept at hzeros
  have hdigit : ∀ c ∈ whole ++ kept, c.isDigit = true := by
    intro c hc
    refine h.written.isDigit c ?_
    rw [hzeros, ← List.append_assoc]
    exact List.mem_append_left _ hc
  have hn : ofDigits (whole ++ kept) * 10 ^ zeros = n := by
    rw [← h.written.ofDigits_eq, hzeros, ← List.append_assoc, ofDigits_append_zeros]
  have hlength : decimals = kept.length + zeros := by
    rw [← h.written.length_fraction, hzeros, List.length_append, List.length_replicate]
  refine ⟨h.rounded, h.hasPlace, ?_, mem_pointed hdigit, h.isNotation, fun _ hpoint => ?_, nofun⟩
  · rw [read?_pointed h.written.nonempty hdigit h.endsWith, Option.map_some]
    have hexponent : e - (kept.length : Int) = (zeros : Int) + (e - decimals) := by omega
    rw [toRat, hexponent, zpow_add₀ (by norm_num), zpow_natCast, ← mul_assoc, ← hn, Nat.cast_mul, Nat.cast_pow,
      Nat.cast_ofNat]
  · obtain ⟨hwhole, hfraction⟩ := List.forall_mem_append.1 hdigit
    have hne : kept ≠ [] := by
      rintro rfl
      rw [pointed, if_pos rfl, List.append_nil] at hpoint
      exact absurd (hwhole _ hpoint) (by decide)
    obtain ⟨c, hlast⟩ := Option.ne_none_iff_exists'.1 (mt List.getLast?_eq_none_iff.1 hne)
    refine ⟨c, ?_, getLast?_withoutZeros fraction c (hkept ▸ hlast), ?_⟩
    · rw [pointed, if_neg hne, List.getLast?_append, List.getLast?_cons, hlast]
      rfl
    · rintro rfl
      exact absurd (hfraction _ (List.mem_of_getLast? hlast)) (by decide)

/-- A general layout denotes the rounded number, has an exponent if that asks for one, and keeps or drops zeros. -/
theorem exists_showsGeneral {x : Rat} (hx : 0 ≤ x) (precision : Nat) (upper keepZeros : Bool) :
    ∃ r place mantissa exponent, general x precision upper keepZeros = mantissa ++ exponent ∧
      ShowsGeneral x (max precision 1) upper keepZeros r place mantissa exponent := by
  obtain ⟨n, decimals, place, e, whole, fraction, exponent, hgeneral, h⟩ := exists_isLaidOut hx precision upper
  cases keepZeros with
  | true => exact ⟨_, place, _, exponent, hgeneral, h.shows_with_zeros⟩
  | false =>
    have hdropped := general_without_zeros hgeneral h.written.isDigit h.endsWith
    exact ⟨_, place, _, exponent, hdropped, h.shows_without_zeros⟩

end Phrasebook.Decimal
