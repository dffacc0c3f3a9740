import Phrasebook.Proofs.Binary64
import Phrasebook.Proofs.Decimal.Layout
import Phrasebook.Proofs.Format.Faults

/-!
# How numbers are written

A conversion of a number writes a sign, the mark of an alternate hexadecimal number, and digits (`exists_digits`).  The
digits are decimal layouts, except for those in base sixteen, which may start with a letter.  A width adds blanks on
one side, or zeros between the mark and the digits (`pad_blanks`, `pad_zeros`).
-/

namespace Phrasebook.Format

open Decimal

/-- The value is an integer, or a double that is a number. -/
def IsFinite : Value → Prop
  | .int _ | .long _ => True
  | .float x => x.toRat?.isSome = true
  | .text _ => False

/-- The conversion is one of a number. -/
def Kind.isNumeric : Kind → Bool
  | decimal | hex _ | octal | fixed | exponential _ | general _ => true
  | text | upperText | char => false

/-- What a conversion writes in front of the digits: the mark of an alternate hexadecimal number. -/
def Conversion.mark (conversion : Conversion) : List Char :=
  match conversion.kind with
  | .hex upper => if conversion.flags.alternate then hexMark upper else []
  | _ => []

/-- The digits in base sixteen. -/
def hexDigits (upper : Bool) (n : Nat) : List Char :=
  if upper then (Nat.toDigits 16 n).map Char.toUpper else Nat.toDigits 16 n

/-- The characters of digits in base sixteen. -/
def hexAlphabet : List Char :=
  ['0', '1', '2', '3', '4', '5', '6', '7', '8', '9', 'a', 'b', 'c', 'd', 'e', 'f', 'A', 'B', 'C', 'D', 'E', 'F']

/-- The characters that digits and what stands among them are written with. -/
def digitAlphabet : List Char :=
  hexAlphabet ++ ['.', ',', '+', '-']

variable {conversion : Conversion} {value : Value} {flags : Flags} {width : Nat} {before mark digits : List Char}

/-! ### Digits -/

theorem exists_digit_of_mem_toDigits {base n : Nat} {c : Char} (hbase : 1 < base) (h : c ∈ Nat.toDigits base n) :
    ∃ digit < base, c = digit.digitChar := by
  induction n using Nat.strongRecOn with
  | ind n ih =>
    rw [Nat.toDigits_eq_if hbase] at h
    split at h
    · next hn => exact ⟨n, hn, List.mem_singleton.1 h⟩
    · have hmod : n % base < base := Nat.mod_lt _ (by omega)
      rcases List.mem_append.1 h with h | h
      · exact ih (n / base) (Nat.div_lt_self (by omega) hbase) h
      · exact ⟨n % base, hmod, List.mem_singleton.1 h⟩

theorem mem_hexAlphabet {upper : Bool} {n : Nat} {c : Char} (h : c ∈ hexDigits upper n) : c ∈ hexAlphabet := by
  have hdigits : ∀ digit < 16, digit.digitChar ∈ hexAlphabet ∧ digit.digitChar.toUpper ∈ hexAlphabet := by decide
  unfold hexDigits at h
  split at h
  · obtain ⟨d, hd, rfl⟩ := List.mem_map.1 h
    obtain ⟨digit, hdigit, rfl⟩ := exists_digit_of_mem_toDigits (by omega) hd
    exact (hdigits digit hdigit).2
  · obtain ⟨digit, hdigit, rfl⟩ := exists_digit_of_mem_toDigits (by omega) h
    exact (hdigits digit hdigit).1

theorem mem_digitAlphabet_of_hexDigits {upper : Bool} {n : Nat} {c : Char} (h : c ∈ hexDigits upper n) :
    c ∈ digitAlphabet :=
  List.mem_append_left _ (mem_hexAlphabet h)

private theorem mem_digitAlphabet_of_isDigit {c : Char} (h : c.isDigit = true) : c ∈ digitAlphabet := by
  have hdigits : ∀ n < 58, 48 ≤ n → Char.ofNat n ∈ digitAlphabet := by decide
  rw [Char.isDigit_iff_toNat] at h
  rw [← Char.ofNat_toNat c]
  exact hdigits c.toNat (Nat.lt_succ_of_le h.2) h.1

theorem mem_digitAlphabet_of_laidOut {text : List Char} {c : Char} (h : LaidOut text) (hc : c ∈ text) :
    c ∈ digitAlphabet := by
  have hlayout := h.within c hc
  unfold isLayoutChar at hlayout
  simp only [Bool.or_eq_true, beq_iff_eq, or_assoc] at hlayout
  rcases hlayout with hdigit | rfl | rfl | rfl | rfl | rfl | rfl
  · exact mem_digitAlphabet_of_isDigit hdigit
  all_goals decide

theorem hexDigits_ne_nil (upper : Bool) (n : Nat) : hexDigits upper n ≠ [] := by
  unfold hexDigits
  split <;> simp [Nat.toDigits_ne_nil]

/-- The digits of an integer that is not in base sixteen. -/
theorem laidOut_integerDigits (hkind : ∀ upper, conversion.kind ≠ .hex upper) (n : Nat) :
    LaidOut (integerDigits conversion n) := by
  have hdigits : ∀ {base}, 0 < base → base ≤ 10 → ∀ c ∈ Nat.toDigits base n, c.isDigit = true :=
    fun h h' c hc => Nat.isDigit_of_mem_toDigits h h' hc
  unfold integerDigits
  dsimp only
  split
  · next upper hhex => exact absurd hhex (hkind upper)
  · refine laidOut_of_digits (by simp [Nat.toDigits_ne_nil]) fun c hc => ?_
    rcases List.mem_append.1 hc with hc | hc
    · split at hc
      · rw [List.mem_singleton.1 hc]
        decide
      · cases hc
    · exact hdigits (by omega) (by omega) c hc
  · split
    · exact (grouped_groupThousands Nat.toDigits_ne_nil).laidOut (hdigits (by omega) (by omega))
    · exact laidOut_of_digits Nat.toDigits_ne_nil (hdigits (by omega) (by omega))

/-- Only the whole number is grouped. -/
theorem groupWhole_eq {whole fraction : List Char} (h : IsPositional whole fraction) :
    groupWhole (whole ++ fraction) = groupThousands whole ++ fraction := by
  have hplain : ∀ c ∈ whole, (c != '.') = true := by
    intro c hc
    rw [bne_iff_ne]
    rintro rfl
    exact absurd (h.whole_digits _ hc) (by decide)
  unfold groupWhole
  rw [List.takeWhile_append_of_pos hplain, List.dropWhile_append_of_pos hplain]
  rcases h.fraction_digits with rfl | ⟨digits, rfl, -⟩ <;> simp

theorem laidOut_layout (conversion : Conversion) (x : Rat) : LaidOut (layout conversion x) := by
  unfold layout
  dsimp only
  split
  · exact laidOut_exponential _ _ _
  · exact laidOut_general _ _ _ _
  · split
    · obtain ⟨whole, fraction, hsplit, h⟩ := exists_fixed x (conversion.precision.getD defaultPrecision)
      rw [hsplit, groupWhole_eq h]
      exact ((grouped_groupThousands h.nonempty).laidOut h.whole_digits).append fun c hc => h.isLayoutChar hc
    · exact laidOut_fixed _ _

theorem exists_finite_of_double? {x : Binary64} (hfinite : IsFinite value) (hx : double? value = some x) :
    ∃ negative significand exponent, x = .finite negative significand exponent := by
  cases value with
  | int n =>
    obtain rfl := Option.some.inj hx
    refine Binary64.exists_finite_ofInt ?_
    have hle := n.le_toInt
    have hlt := n.toInt_lt
    unfold UInt64.size
    omega
  | long n =>
    obtain rfl := Option.some.inj hx
    refine Binary64.exists_finite_ofInt ?_
    have hle := n.le_toInt
    have hlt := n.toInt_lt
    unfold UInt64.size
    omega
  | float y =>
    obtain rfl := Option.some.inj hx
    cases y with
    | nan => cases hfinite
    | infinite negative => cases hfinite
    | finite negative significand exponent => exact ⟨_, _, _, rfl⟩
  | text s => cases hfinite

/-- What the digits behind the mark look like. -/
inductive IsDigits (conversion : Conversion) : List Char → Prop
  | hex {upper : Bool} (kind : conversion.kind = .hex upper) (n : Nat) : IsDigits conversion (hexDigits upper n)
  | laidOut {digits : List Char} (kind : ∀ upper, conversion.kind ≠ .hex upper) (laidOut : LaidOut digits) :
      IsDigits conversion digits

theorem mark_of_not_hex (hkind : ∀ upper, conversion.kind ≠ .hex upper) : conversion.mark = [] := by
  unfold Conversion.mark
  split
  · next upper hhex => exact absurd hhex (hkind upper)
  · rfl

theorem integerDigits_of_hex {upper : Bool} (hkind : conversion.kind = .hex upper) (n : Nat) :
    integerDigits conversion n = conversion.mark ++ hexDigits upper n := by
  unfold integerDigits Conversion.mark hexDigits
  rw [hkind]

/-- A numeric conversion writes a sign, the mark, and digits, or the name of a double that is not finite. -/
theorem digits_or_name (h : body conversion value = .ok (.number before digits)) :
    conversion.kind.isNumeric = true ∧ (∃ negative, before = sign conversion.flags negative) ∧
      ((∃ rest, digits = conversion.mark ++ rest ∧ IsDigits conversion rest) ∨
        ¬ IsFinite value ∧ startsWithDigit digits = false) := by
  have hplain : ∀ text, (∀ upper, conversion.kind ≠ .hex upper) → LaidOut text →
      ∃ rest, text = conversion.mark ++ rest ∧ IsDigits conversion rest :=
    fun text hhex htext => ⟨text, by rw [mark_of_not_hex hhex, List.nil_append], .laidOut hhex htext⟩
  cases makes_of_body h with
  | @integer n hkind =>
    have hhex : ∀ upper, conversion.kind ≠ .hex upper := by simp [hkind]
    exact ⟨by rw [hkind]; rfl, ⟨_, rfl⟩, .inl (hplain _ hhex (laidOut_integerDigits hhex _))⟩
  | @bits n hkind =>
    rcases hkind with ⟨upper, hkind⟩ | hkind
    · exact ⟨by rw [hkind]; rfl, ⟨_, rfl⟩, .inl ⟨_, integerDigits_of_hex hkind n, .hex hkind n⟩⟩
    · have hhex : ∀ upper, conversion.kind ≠ .hex upper := by simp [hkind]
      exact ⟨by rw [hkind]; rfl, ⟨_, rfl⟩, .inl (hplain _ hhex (laidOut_integerDigits hhex n))⟩
  | @double x hkind hx =>
    have hnumeric : conversion.kind.isNumeric = true ∧ ∀ upper, conversion.kind ≠ .hex upper := by
      obtain hkind | ⟨upper, hkind⟩ | ⟨upper, hkind⟩ := hkind <;> simp [hkind, Kind.isNumeric]
    have hinfinite : (∀ negative significand exponent, x ≠ .finite negative significand exponent) →
        ¬ IsFinite value := by
      intro hne hfinite
      obtain ⟨negative, significand, exponent, heq⟩ := exists_finite_of_double? hfinite hx
      exact hne _ _ _ heq
    refine ⟨hnumeric.1, ⟨_, rfl⟩, ?_⟩
    cases x with
    | nan => exact .inr ⟨hinfinite nofun, rfl⟩
    | infinite negative => exact .inr ⟨hinfinite nofun, rfl⟩
    | finite negative significand exponent => exact .inl (hplain _ hnumeric.2 (laidOut_layout conversion _))

/-- A number that is finite is written with a sign, the mark, and digits. -/
theorem exists_digits (hkind : conversion.kind.isNumeric = true) (hfits : conversion.Fits value)
    (hfinite : IsFinite value) : ∃ negative digits,
      body conversion value = .ok (.number (sign conversion.flags negative) (conversion.mark ++ digits)) ∧
        IsDigits conversion digits := by
  obtain ⟨made, hbody⟩ := exists_body_iff.2 ⟨hfits.not_refused, hfits.suits⟩
  cases made with
  | number before digits =>
    obtain ⟨-, ⟨negative, rfl⟩, ⟨rest, rfl, hrest⟩ | ⟨hinfinite, -⟩⟩ := digits_or_name hbody
    · exact ⟨negative, rest, hbody, hrest⟩
    · exact absurd hfinite hinfinite
  | text characters =>
    cases makes_of_body hbody with
    | text htext => simp [htext, Kind.isNumeric] at hkind
    | upperText htext => simp [htext, Kind.isNumeric] at hkind
    | character hchar => simp [hchar, Kind.isNumeric] at hkind

/-! ### Fill -/

theorem IsDigits.mem_digitAlphabet (h : IsDigits conversion digits) {c : Char} (hc : c ∈ digits) :
    c ∈ digitAlphabet := by
  cases h with
  | hex _ n => exact mem_digitAlphabet_of_hexDigits hc
  | laidOut _ hlaidOut => exact mem_digitAlphabet_of_laidOut hlaidOut hc

/-- Neither the letter of a mark nor a blank is among the digits. -/
theorem IsDigits.notMem (h : IsDigits conversion digits) {c : Char} (hc : c ∉ digitAlphabet) : c ∉ digits :=
  fun hmem => hc (h.mem_digitAlphabet hmem)

theorem mark_eq (conversion : Conversion) : conversion.mark = [] ∨ ∃ upper, conversion.mark = hexMark upper := by
  unfold Conversion.mark
  split
  · next upper _ =>
    split
    · exact .inr ⟨upper, rfl⟩
    · exact .inl rfl
  · exact .inl rfl

theorem of_mem_mark {p : Char → Bool} (hp : ['0', 'x', 'X'].all p = true) {c : Char} (hc : c ∈ conversion.mark) :
    p c = true := by
  have hsubset : ∀ upper, hexMark upper ⊆ ['0', 'x', 'X'] := by simp [hexMark]
  refine List.all_eq_true.1 hp c ?_
  rcases mark_eq conversion with hmark | ⟨upper, hmark⟩ <;> rw [hmark] at hc
  · cases hc
  · exact hsubset upper hc

theorem zeroFill_eq (h : IsDigits conversion digits) (before : List Char) (count : Nat) :
    zeroFill before (conversion.mark ++ digits) count =
      before ++ conversion.mark ++ List.replicate count '0' ++ digits := by
  rcases mark_eq conversion with hmark | ⟨upper, hmark⟩
  · rw [hmark, List.nil_append]
    unfold zeroFill
    dsimp only
    split
    · exact absurd (List.mem_cons_of_mem _ List.mem_cons_self) (h.notMem (c := 'x') (by decide))
    · exact absurd (List.mem_cons_of_mem _ List.mem_cons_self) (h.notMem (c := 'X') (by decide))
    · rw [List.append_nil]
  · rw [hmark]
    cases upper <;> simp [zeroFill, hexMark]

private theorem zeroFill_zero (before digits : List Char) : zeroFill before digits 0 = before ++ digits := by
  unfold zeroFill
  dsimp only
  split <;> simp

/-- Without room to fill, the text of a body is kept. -/
theorem pad_of_le {made : Body} (h : width ≤ made.characters.length) : pad flags width made = made.characters := by
  unfold pad
  dsimp only
  rw [Nat.sub_eq_zero_of_le h, List.replicate_zero, List.append_nil, List.nil_append]
  split
  · rfl
  · split
    · rw [zeroFill_zero]
      split <;> rfl
    · rfl

/-- The width is used for the fill only. -/
theorem convert_of_body {made : Body} (h : body conversion value = .ok made) (fieldWidth : Option Nat) :
    convert { conversion with width := fieldWidth } value = .ok (pad conversion.flags (fieldWidth.getD 0) made) := by
  have hbody : body { conversion with width := fieldWidth } value = body conversion value := by
    obtain ⟨flags, _, precision, kind⟩ := conversion
    cases kind <;> rfl
  rw [convert, hbody, h]
  rfl

theorem pad_leftAlign {made : Body} (h : flags.leftAlign = true) :
    pad flags width made = made.characters ++ List.replicate (width - made.characters.length) ' ' := by
  unfold pad
  dsimp only
  rw [if_pos h]

theorem pad_zeros (h : IsDigits conversion digits) (hleft : flags.leftAlign = false) (hzero : flags.zeroPad = true)
    (hstart : startsWithDigit (conversion.mark ++ digits) = true) :
    pad flags width (.number before (conversion.mark ++ digits)) =
      before ++ conversion.mark ++
        List.replicate (width - (before ++ conversion.mark ++ digits).length) '0' ++ digits := by
  unfold pad
  dsimp only
  rw [hleft, hzero, hstart, zeroFill_eq h]
  simp [Body.characters]

theorem pad_blanks (hleft : flags.leftAlign = false)
    (hzero : (flags.zeroPad && startsWithDigit digits) = false) :
    pad flags width (.number before digits) =
      List.replicate (width - (before ++ digits).length) ' ' ++ (before ++ digits) := by
  unfold pad
  dsimp only
  rw [hleft, hzero]
  simp [Body.characters]

/-- A number is filled up as the flags say: with blanks on the right or on the left, or with zeros in front of the
digits. -/
inductive Filled (flags : Flags) (before digits : List Char) : List Char → Prop
  | right (count : Nat) (leftAlign : flags.leftAlign = true) :
      Filled flags before digits (before ++ digits ++ List.replicate count ' ')
  | zeros (count : Nat) (leftAlign : flags.leftAlign = false) (zeroPad : flags.zeroPad = true) :
      Filled flags before digits (before ++ List.replicate count '0' ++ digits)
  | left (count : Nat) (leftAlign : flags.leftAlign = false) :
      Filled flags before digits (List.replicate count ' ' ++ (before ++ digits))

theorem filled_pad (h : IsDigits conversion digits) (flags : Flags) (width : Nat) (before : List Char) :
    Filled flags (before ++ conversion.mark) digits (pad flags width (.number before (conversion.mark ++ digits))) := by
  cases hleft : flags.leftAlign with
  | true =>
    rw [pad_leftAlign hleft, Body.characters, ← List.append_assoc]
    exact .right _ hleft
  | false =>
    cases hzero : flags.zeroPad && startsWithDigit (conversion.mark ++ digits) with
    | true =>
      rw [Bool.and_eq_true] at hzero
      rw [pad_zeros h hleft hzero.1 hzero.2]
      exact .zeros _ hleft hzero.1
    | false =>
      rw [pad_blanks hleft hzero, ← List.append_assoc before]
      exact .left _ hleft

end Phrasebook.Format
