import Phrasebook.Binary64.Reading
import Phrasebook.Proofs.Format.Numbers
import Phrasebook.Text.Blank

/-!
# Integers are read back

Behind the fill, the sign, the mark and the commas stand the digits of an integer, so that its text determines it: in
base ten the integer itself, in the bases eight and sixteen its bits (`integers_read_back`).  Commas change nothing but
the whole number, and stand between groups of three digits.
-/

namespace Phrasebook.Format

open Decimal

variable {conversion : Conversion} {value : Value} {flags : Flags} {negative : Bool} {base : Nat}
variable {shown digits text : List Char}

/-! ### Readers -/

/-- The number that a digit of a base stands for, in either case. -/
def digitValue? (base : Nat) (c : Char) : Option Nat :=
  (List.range base).find? fun digit => digit.digitChar == c.toLower

/-- A number with one more digit behind it. -/
def pushDigit? (base n : Nat) (c : Char) : Option Nat :=
  (digitValue? base c).map (base * n + ·)

/-- The number that is written with these digits, at least one. -/
def readDigits? (base : Nat) (digits : List Char) : Option Nat :=
  if digits = [] then none else digits.foldlM (pushDigit? base) 0

/-- The text behind a sign, if there is one. -/
def dropSign : List Char → List Char
  | '-' :: rest => rest
  | '+' :: rest => rest
  | text => text

/-- The text behind the mark of base sixteen, if there is one. -/
def dropMark : List Char → List Char
  | '0' :: 'x' :: rest => rest
  | '0' :: 'X' :: rest => rest
  | text => text

/-- Reads bits behind fill, sign and mark. -/
def readBits? (base : Nat) (text : List Char) : Option Nat :=
  readDigits? base (dropMark (dropSign (Text.trim text)))

/-- Reads an integer behind fill, with a sign and commas. -/
def readDecimal? (text : List Char) : Option Int :=
  readInt? ((Text.trim text).filter (· != ','))

/-- The conversion writes the value as a text in which `read` finds `n`. -/
def ReadsAs {α : Type} (read : List Char → Option α) (conversion : Conversion) (value : Value) (n : α) : Prop :=
  ∃ text, convert conversion value = .ok text ∧ read text = some n

/-- The conversions that write the bits of an integer, and their bases. -/
inductive WritesBits : Kind → Nat → Prop
  | hex (upper : Bool) : WritesBits (.hex upper) 16
  | octal : WritesBits .octal 8

theorem WritesBits.kind_eq {kind : Kind} (h : WritesBits kind base) : (∃ upper, kind = .hex upper) ∨ kind = .octal := by
  cases h with
  | hex upper => exact .inl ⟨upper, rfl⟩
  | octal => exact .inr rfl

theorem WritesBits.base_bounds {kind : Kind} (h : WritesBits kind base) : 1 < base ∧ base ≤ 16 := by
  cases h <;> omega

/-! ### Fill -/

/-- The sign that is left without blanks: a minus sign for a negative number, maybe a plus sign for another one. -/
inductive ShowsSign : Bool → List Char → Prop
  | minus : ShowsSign true ['-']
  | plus : ShowsSign false ['+']
  | unsigned : ShowsSign false []

theorem exists_showsSign (flags : Flags) (negative : Bool) :
    ∃ count shown, sign flags negative = List.replicate count ' ' ++ shown ∧ ShowsSign negative shown := by
  cases negative with
  | true => exact ⟨0, ['-'], rfl, .minus⟩
  | false =>
    unfold sign
    rw [if_neg (by decide)]
    split
    · exact ⟨0, ['+'], rfl, .plus⟩
    · split
      · exact ⟨1, [], rfl, .unsigned⟩
      · exact ⟨0, [], rfl, .unsigned⟩

private theorem dropWhile_blanks (count : Nat) {text : List Char} (h : ∀ c ∈ text.head?, Text.isBlank c = false) :
    (List.replicate count ' ' ++ text).dropWhile Text.isBlank = text := by
  rw [List.dropWhile_append_of_pos fun c hc => by rw [List.eq_of_mem_replicate hc]; decide]
  cases text with
  | nil => rfl
  | cons c text => exact List.dropWhile_cons_of_neg (by simp [h c rfl])

theorem trim_of_blanks (left right : Nat) {core : List Char} (hne : core ≠ [])
    (h : ∀ c ∈ core, Text.isBlank c = false) :
    Text.trim (List.replicate left ' ' ++ (core ++ List.replicate right ' ')) = core := by
  have hhead : ∀ c ∈ (core ++ List.replicate right ' ').head?, Text.isBlank c = false := by
    intro c hc
    rw [List.head?_append_of_ne_nil _ hne] at hc
    exact h c (List.mem_of_mem_head? hc)
  have hlast : ∀ c ∈ core.reverse.head?, Text.isBlank c = false :=
    fun c hc => h c (List.mem_reverse.1 (List.mem_of_mem_head? hc))
  unfold Text.trim
  rw [dropWhile_blanks left hhead, List.reverse_append, List.reverse_replicate, dropWhile_blanks right hlast,
    List.reverse_reverse]

theorem IsDigits.isBlank (h : IsDigits conversion digits) {c : Char} (hc : c ∈ digits) : Text.isBlank c = false := by
  have hall : (digitAlphabet.all fun c => Text.isBlank c == false) = true := by decide
  exact eq_of_beq (List.all_eq_true.1 hall c (h.mem_digitAlphabet hc))

theorem ShowsSign.isBlank (h : ShowsSign negative shown) {c : Char} (hc : c ∈ shown) : Text.isBlank c = false := by
  cases h with
  | minus | plus =>
    rw [List.mem_singleton.1 hc]
    decide
  | unsigned => cases hc

theorem IsDigits.ne_nil (h : IsDigits conversion digits) : digits ≠ [] := by
  cases h with
  | @hex upper _ n => exact hexDigits_ne_nil upper n
  | laidOut _ hlaidOut =>
    obtain ⟨c, hc, -⟩ := hlaidOut.first
    exact List.ne_nil_of_mem (List.mem_of_mem_head? hc)

/-- Without fill there are the sign, the mark, and the digits, maybe behind zeros. -/
theorem Filled.exists_trim (hdigits : IsDigits conversion digits)
    (h : Filled flags (sign conversion.flags negative ++ conversion.mark) digits text) :
    ∃ shown zeros, ShowsSign negative shown ∧
      Text.trim text = shown ++ (conversion.mark ++ (List.replicate zeros '0' ++ digits)) := by
  obtain ⟨count, shown, hsign, hshown⟩ := exists_showsSign conversion.flags negative
  have hmark : ∀ c ∈ conversion.mark, Text.isBlank c = false :=
    fun c hc => eq_of_beq (of_mem_mark (p := (Text.isBlank · == false)) (by decide) hc)
  have htrim : ∀ left zeros right, Text.trim (List.replicate left ' ' ++
      (shown ++ (conversion.mark ++ (List.replicate zeros '0' ++ digits)) ++ List.replicate right ' ')) =
        shown ++ (conversion.mark ++ (List.replicate zeros '0' ++ digits)) := by
    intro left zeros right
    refine trim_of_blanks left right (by simp [hdigits.ne_nil]) ?_
    simp only [List.forall_mem_append]
    refine ⟨fun c hc => hshown.isBlank hc, hmark, fun c hc => ?_, fun c hc => hdigits.isBlank hc⟩
    rw [List.eq_of_mem_replicate hc]
    decide
  rw [hsign] at h
  cases h with
  | right blanks _ => exact ⟨shown, 0, hshown, by simpa using htrim count 0 blanks⟩
  | zeros zeros _ _ => exact ⟨shown, zeros, hshown, by simpa using htrim count zeros 0⟩
  | left blanks _ =>
    -- The blank that stands for a plus sign is behind the fill, and trimmed with it.
    refine ⟨shown, 0, hshown, ?_⟩
    rw [← htrim (blanks + count) 0 0]
    simp [← List.replicate_append_replicate]

theorem exists_trim_of_body (hdigits : IsDigits conversion digits)
    (hbody : body conversion value =
      .ok (.number (sign conversion.flags negative) (conversion.mark ++ digits))) :
    ∃ text shown zeros, convert conversion value = .ok text ∧ ShowsSign negative shown ∧
      Text.trim text = shown ++ (conversion.mark ++ (List.replicate zeros '0' ++ digits)) := by
  obtain ⟨shown, zeros, hshown, htrim⟩ := (filled_pad hdigits conversion.flags (conversion.width.getD 0) _).exists_trim
    hdigits
  exact ⟨_, shown, zeros, convert_of_body hbody conversion.width, hshown, htrim⟩

/-! ### Reading bits -/

private theorem digitValue?_digitChar : ∀ base ≤ 16, ∀ digit < base,
    digitValue? base (Nat.digitChar digit) = some digit ∧
      digitValue? base (Nat.digitChar digit).toUpper = some digit := by
  decide

theorem foldlM_map_toDigits {f : Char → Char} (hbase : 1 < base)
    (hf : ∀ digit < base, digitValue? base (f (Nat.digitChar digit)) = some digit) (n : Nat) :
    ((Nat.toDigits base n).map f).foldlM (pushDigit? base) 0 = some n := by
  -- By induction on the number without its last digit, as `Nat.toDigits` unfolds.
  have hpush : ∀ m, ∀ digit < base, pushDigit? base m (f (Nat.digitChar digit)) = some (base * m + digit) := by
    intro m digit hdigit
    rw [pushDigit?, hf digit hdigit, Option.map_some]
  induction n using Nat.strongRecOn with
  | ind n ih =>
    rw [Nat.toDigits_eq_if hbase]
    split
    · next hn => simp [hpush 0 n hn]
    · next hn =>
      have hmod : n % base < base := Nat.mod_lt _ (by omega)
      have hdiv : n / base < n := Nat.div_lt_self (by omega) hbase
      rw [List.map_append, List.foldlM_append, ih _ hdiv]
      simp [hpush _ _ hmod, Nat.div_add_mod]

theorem digitValue?_zero (hbase : 0 < base) : digitValue? base '0' = some 0 := by
  obtain ⟨base, rfl⟩ := Nat.exists_eq_succ_of_ne_zero (Nat.ne_of_gt hbase)
  unfold digitValue?
  rw [List.range_succ_eq_map, List.find?_cons_of_pos rfl]

private theorem foldlM_zeros (hbase : 0 < base) (count : Nat) (digits : List Char) :
    (List.replicate count '0' ++ digits).foldlM (pushDigit? base) 0 = digits.foldlM (pushDigit? base) 0 := by
  have hzero : pushDigit? base 0 '0' = some 0 := by
    rw [pushDigit?, digitValue?_zero hbase]
    rfl
  induction count with
  | zero => rfl
  | succ count ih =>
    rw [List.replicate_succ, List.cons_append, List.foldlM_cons, hzero, ← ih]
    rfl

/-- The text is the digits of a number in a base, in some case and maybe behind zeros. -/
inductive IsNumeral (base n : Nat) : List Char → Prop
  | intro (zeros : Nat) (f : Char → Char)
      (value : ∀ digit < base, digitValue? base (f (Nat.digitChar digit)) = some digit) :
      IsNumeral base n (List.replicate zeros '0' ++ (Nat.toDigits base n).map f)

theorem IsNumeral.zeros_append {n : Nat} (h : IsNumeral base n digits) (count : Nat) :
    IsNumeral base n (List.replicate count '0' ++ digits) := by
  obtain @⟨zeros, f, hf⟩ := h
  rw [← List.append_assoc, List.replicate_append_replicate]
  exact .intro (count + zeros) f hf

theorem IsNumeral.readDigits?_eq {n : Nat} (h : IsNumeral base n digits) (hbase : 1 < base) :
    readDigits? base digits = some n := by
  obtain @⟨zeros, f, hf⟩ := h
  have hne : List.replicate zeros '0' ++ (Nat.toDigits base n).map f ≠ [] := by simp [Nat.toDigits_ne_nil]
  rw [readDigits?, if_neg hne, foldlM_zeros (by omega), foldlM_map_toDigits hbase hf]

theorem IsNumeral.notMem {n : Nat} {c : Char} (h : IsNumeral base n digits) (hbase : 1 < base)
    (hc : digitValue? base c = none) : c ∉ digits := by
  obtain @⟨zeros, f, hf⟩ := h
  intro hmem
  rcases List.mem_append.1 hmem with hmem | hmem
  · obtain rfl := List.eq_of_mem_replicate hmem
    rw [digitValue?_zero (by omega)] at hc
    cases hc
  · obtain ⟨d, hd, rfl⟩ := List.mem_map.1 hmem
    obtain ⟨digit, hdigit, rfl⟩ := exists_digit_of_mem_toDigits hbase hd
    rw [hf digit hdigit] at hc
    cases hc

theorem ShowsSign.dropSign_append (h : ShowsSign negative shown) (hminus : '-' ∉ digits) (hplus : '+' ∉ digits) :
    dropSign (shown ++ digits) = digits := by
  cases h with
  | minus => rfl
  | plus => rfl
  | unsigned =>
    rw [List.nil_append]
    unfold dropSign
    split
    · exact absurd List.mem_cons_self hminus
    · exact absurd List.mem_cons_self hplus
    · rfl

theorem dropMark_append (conversion : Conversion) (hlower : 'x' ∉ digits) (hupper : 'X' ∉ digits) :
    dropMark (conversion.mark ++ digits) = digits := by
  rcases mark_eq conversion with hmark | ⟨upper, hmark⟩ <;> rw [hmark]
  · rw [List.nil_append]
    unfold dropMark
    split
    · exact absurd (List.mem_cons_of_mem _ List.mem_cons_self) hlower
    · exact absurd (List.mem_cons_of_mem _ List.mem_cons_self) hupper
    · rfl
  · cases upper <;> rfl

private theorem digitValue?_signs : ∀ base ≤ 16, digitValue? base '-' = none ∧ digitValue? base '+' = none ∧
    digitValue? base 'x' = none ∧ digitValue? base 'X' = none := by
  decide

theorem readBits?_of_trim {n : Nat} (hshown : ShowsSign negative shown) (hdigits : IsNumeral base n digits)
    (hbase : 1 < base) (hle : base ≤ 16) (htrim : Text.trim text = shown ++ (conversion.mark ++ digits)) :
    readBits? base text = some n := by
  obtain ⟨hminus, hplus, hlower, hupper⟩ := digitValue?_signs base hle
  have hsign : ∀ c, ['0', 'x', 'X'].all (· != c) = true → digitValue? base c = none →
      c ∉ conversion.mark ++ digits := by
    intro c hmark hvalue hmem
    rcases List.mem_append.1 hmem with hmem | hmem
    · exact absurd (of_mem_mark hmark hmem) (by simp)
    · exact hdigits.notMem hbase hvalue hmem
  rw [readBits?, htrim, hshown.dropSign_append (hsign _ (by decide) hminus) (hsign _ (by decide) hplus),
    dropMark_append conversion (hdigits.notMem hbase hlower) (hdigits.notMem hbase hupper),
    hdigits.readDigits?_eq hbase]

/-- The digits of bits behind the mark. -/
theorem exists_numeral (hkind : WritesBits conversion.kind base) (n : Nat) : ∃ digits,
    integerDigits conversion n = conversion.mark ++ digits ∧ IsDigits conversion digits ∧ IsNumeral base n digits := by
  obtain ⟨flags, width, precision, kind⟩ := conversion
  cases hkind with
  | hex upper =>
    refine ⟨hexDigits upper n, integerDigits_of_hex rfl n, .hex rfl n, ?_⟩
    have hvalue := digitValue?_digitChar 16 (Nat.le_refl _)
    cases upper with
    | true => exact .intro 0 Char.toUpper fun digit hdigit => (hvalue digit hdigit).2
    | false =>
      have hnumeral : IsNumeral 16 n _ := .intro 0 id fun digit hdigit => (hvalue digit hdigit).1
      rwa [List.map_id] at hnumeral
  | octal =>
    -- The zero of an alternate octal number is one of its digits, and no mark.
    have hhex : ∀ upper, Kind.octal ≠ .hex upper := nofun
    refine ⟨integerDigits ⟨flags, width, precision, .octal⟩ n, rfl, .laidOut hhex (laidOut_integerDigits hhex n), ?_⟩
    have hnumeral : IsNumeral 8 n _ :=
      .intro (if flags.alternate then 1 else 0) id fun digit hdigit =>
        (digitValue?_digitChar 8 (by omega) digit hdigit).1
    rw [List.map_id] at hnumeral
    unfold integerDigits
    dsimp only
    cases halternate : flags.alternate <;> rw [halternate] at hnumeral <;> exact hnumeral

theorem readsAs_bits {n : Nat} (hkind : WritesBits conversion.kind base) (hprecision : conversion.precision = none)
    (hvalue : bits? value = some n) : ReadsAs (readBits? base) conversion value n := by
  obtain ⟨digits, hwritten, hdigits, hnumeral⟩ := exists_numeral hkind n
  have hbody := body_of_makes (.bits hkind.kind_eq hprecision hvalue)
  rw [hwritten] at hbody
  obtain ⟨text, shown, zeros, hconvert, hshown, htrim⟩ := exists_trim_of_body hdigits hbody
  exact ⟨text, hconvert, readBits?_of_trim hshown (hnumeral.zeros_append zeros) hkind.base_bounds.1
    hkind.base_bounds.2 htrim⟩

private theorem toNat_eq_emod {w : Nat} (n : BitVec w) : n.toNat = (n.toInt % (1 <<< w : Nat)).toNat := by
  have hlt : (n.toNat : Int) < (1 <<< w : Nat) := by
    rw [Nat.one_shiftLeft]
    exact Int.ofNat_lt.2 n.isLt
  rw [Nat.one_shiftLeft] at hlt ⊢
  rw [BitVec.toInt_eq_toNat_bmod, Int.bmod_emod, Int.emod_eq_of_lt (Int.natCast_nonneg _) hlt, Int.toNat_natCast]

/-- The bits of an integer are its residue. -/
theorem bits?_int (n : Int32) : bits? (.int n) = some (n.toInt % UInt32.size).toNat :=
  congrArg some (toNat_eq_emod n.toBitVec)

theorem bits?_long (n : Int64) : bits? (.long n) = some (n.toInt % UInt64.size).toNat :=
  congrArg some (toNat_eq_emod n.toBitVec)

/-! ### Reading decimals -/

theorem filter_integerDigits (hkind : conversion.kind = .decimal) (n : Nat) :
    (integerDigits conversion n).filter (· != ',') = Nat.toDigits 10 n := by
  have hcomma : ',' ∉ Nat.toDigits 10 n :=
    fun hmem => absurd (Nat.isDigit_of_mem_toDigits (by omega) (by omega) hmem) (by decide)
  unfold integerDigits
  rw [hkind]
  dsimp only
  split
  · exact (grouped_groupThousands Nat.toDigits_ne_nil).filter_eq hcomma
  · exact filter_of_notMem hcomma

theorem ShowsSign.filter_eq (h : ShowsSign negative shown) : shown.filter (· != ',') = shown := by
  cases h <;> rfl

/-- A sign and digits behind zeros are read as the integer with that sign. -/
theorem ShowsSign.readInt?_append (h : ShowsSign negative shown) (zeros n : Nat) :
    readInt? (shown ++ (List.replicate zeros '0' ++ Nat.toDigits 10 n)) =
      some (if negative then -(n : Int) else n) := by
  generalize hdigits : List.replicate zeros '0' ++ Nat.toDigits 10 n = digits
  have hne : digits ≠ [] := by simp [← hdigits, Nat.toDigits_ne_nil]
  have hall : ∀ c ∈ digits, c.isDigit = true := by
    rw [← hdigits, List.forall_mem_append]
    refine ⟨fun c hc => ?_, fun c hc => Nat.isDigit_of_mem_toDigits (by omega) (by omega) hc⟩
    rw [List.eq_of_mem_replicate hc]
    decide
  have hvalue : ofDigits digits = n := by
    rw [← hdigits, ofDigits, Nat.ofDigitChars_append, Nat.ofDigitChars_replicate_zero, Nat.mul_zero,
      Nat.ofDigitChars_ten_toDigits]
  have haccepted : ¬ (digits = [] ∨ digits.any (! ·.isDigit) = true) := by simpa [hne] using hall
  cases h with
  | minus =>
    have hread : readInt? (['-'] ++ digits) = some (-(ofDigits digits : Int)) := if_neg haccepted
    rw [hread, hvalue, if_pos rfl]
  | plus =>
    have hread : readInt? (['+'] ++ digits) = some (ofDigits digits : Int) := if_neg haccepted
    rw [hread, hvalue, if_neg Bool.false_ne_true]
  | unsigned =>
    have hsign : ∀ c, c.isDigit = false → c ∉ digits := by
      intro c hc hmem
      rw [hall c hmem] at hc
      cases hc
    rw [List.nil_append]
    unfold readInt?
    split
    next heq =>
      split at heq
      · exact absurd List.mem_cons_self (hsign '-' (by decide))
      · exact absurd List.mem_cons_self (hsign '+' (by decide))
      · obtain ⟨rfl, rfl⟩ := Prod.mk.inj heq
        rw [if_neg haccepted, hvalue]
        rfl

theorem readsAs_decimal {n : Int} (hkind : conversion.kind = .decimal) (hprecision : conversion.precision = none)
    (hvalue : value.toInt? = some n) : ReadsAs readDecimal? conversion value n := by
  have hhex : ∀ upper, conversion.kind ≠ .hex upper := by simp [hkind]
  have hbody := body_of_makes (.integer hkind hprecision hvalue)
  rw [← List.nil_append (integerDigits _ _), ← mark_of_not_hex hhex] at hbody
  obtain ⟨text, shown, zeros, hconvert, hshown, htrim⟩ :=
    exists_trim_of_body (.laidOut hhex (laidOut_integerDigits hhex n.natAbs)) hbody
  have hcommas : (Text.trim text).filter (· != ',') =
      shown ++ (List.replicate zeros '0' ++ Nat.toDigits 10 n.natAbs) := by
    have hzeros : (List.replicate zeros '0').filter (· != ',') = List.replicate zeros '0' :=
      List.filter_replicate_of_pos (by decide)
    rw [htrim, mark_of_not_hex hhex, List.nil_append, List.filter_append, List.filter_append, hshown.filter_eq, hzeros,
      filter_integerDigits hkind]
  refine ⟨text, hconvert, ?_⟩
  rw [readDecimal?, hcommas, hshown.readInt?_append]
  refine congrArg some ?_
  simp only [decide_eq_true_eq]
  split <;> omega

/-! ### Groups -/

/-- The conversion with and without commas. -/
def Conversion.withGrouping (conversion : Conversion) (grouping : Bool) : Conversion :=
  { conversion with flags.grouping := grouping }

/-- Commas are put into the whole number only: it is the same with and without them. -/
theorem exists_grouped_body (hkind : conversion.kind = .decimal ∨ conversion.kind = .fixed)
    (hfits : conversion.Fits value) (hfinite : IsFinite value) : ∃ negative whole fraction,
      IsPositional whole fraction ∧ (conversion.kind = .decimal → fraction = []) ∧
        ∀ grouping, body (conversion.withGrouping grouping) value =
          .ok (.number (sign conversion.flags negative)
            ((if grouping then groupThousands whole else whole) ++ fraction)) := by
  rcases hkind with hkind | hkind
  · have hsuits := hfits.suits
    rw [hkind] at hsuits
    obtain ⟨n, hn⟩ := Option.isSome_iff_exists.1 (isSome_toInt?_iff.2 hsuits)
    refine ⟨n < 0, Nat.toDigits 10 n.natAbs, [], ⟨Nat.toDigits_ne_nil, ?_, .inl rfl⟩, fun _ => rfl, fun grouping => ?_⟩
    · exact fun c hc => Nat.isDigit_of_mem_toDigits (by omega) (by omega) hc
    · have hprecision : conversion.precision = none := hfits.allowed (by rw [hkind]; rfl)
      rw [@body_of_makes (conversion.withGrouping grouping) _ _ (.integer hkind hprecision hn), List.append_nil,
        integerDigits, show (conversion.withGrouping grouping).kind = .decimal from hkind]
      rfl
  · have hsuits := hfits.suits
    rw [hkind] at hsuits
    obtain ⟨x, hx⟩ := Option.isSome_iff_exists.1 (isSome_double?_iff.2 hsuits)
    obtain ⟨negative, significand, exponent, rfl⟩ := exists_finite_of_double? hfinite hx
    obtain ⟨whole, fraction, hsplit, hpositional⟩ :=
      exists_fixed (Binary64.magnitude significand exponent) (conversion.precision.getD defaultPrecision)
    refine ⟨negative, whole, fraction, hpositional, fun hdecimal => ?_, fun grouping => ?_⟩
    · rw [hkind] at hdecimal
      cases hdecimal
    · have hlayout : layout (conversion.withGrouping grouping) (Binary64.magnitude significand exponent) =
          (if grouping then groupThousands whole else whole) ++ fraction := by
        unfold layout
        rw [show (conversion.withGrouping grouping).kind = .fixed from hkind,
          show (conversion.withGrouping grouping).precision = conversion.precision from rfl]
        dsimp only
        rw [hsplit]
        cases grouping with
        | true => exact groupWhole_eq hpositional
        | false => rfl
      rw [@body_of_makes (conversion.withGrouping grouping) _ _ (.double (.inl hkind) hx), doubleDigits, hlayout]
      rfl

/-- Commas stand in the whole number of a text, exactly before the groups of three digits.  The text without them is the
same up to fill. -/
structure GroupsWhole (conversion : Conversion) (value : Value) (negative : Bool)
    (whole fraction grouped : List Char) : Prop where
  positional : IsPositional whole fraction
  decimal : conversion.kind = .decimal → fraction = []
  commas : Grouped whole grouped
  without_commas : (grouped ++ fraction).filter (· != ',') = whole ++ fraction
  text : ∃ text, convert (conversion.withGrouping true) value = .ok text ∧
    Filled conversion.flags (sign conversion.flags negative) (grouped ++ fraction) text
  plain : ∃ plain, convert (conversion.withGrouping false) value = .ok plain ∧
    Filled conversion.flags (sign conversion.flags negative) (whole ++ fraction) plain

theorem exists_groupsWhole (hkind : conversion.kind = .decimal ∨ conversion.kind = .fixed)
    (hfits : conversion.Fits value) (hfinite : IsFinite value) :
    ∃ negative whole fraction grouped, GroupsWhole conversion value negative whole fraction grouped := by
  obtain ⟨negative, whole, fraction, hpositional, hdecimal, hbody⟩ := exists_grouped_body hkind hfits hfinite
  have hgrouped : Grouped whole (groupThousands whole) := grouped_groupThousands hpositional.nonempty
  have hwhole : ',' ∉ whole := fun hmem => absurd (hpositional.whole_digits _ hmem) (by decide)
  have hfraction : ',' ∉ fraction := by
    rcases hpositional.fraction_digits with rfl | ⟨digits, rfl, hdigits⟩
    · exact List.not_mem_nil
    · exact List.not_mem_cons_of_ne_of_not_mem (by decide) fun hmem => absurd (hdigits _ hmem) (by decide)
  have hhex : ∀ upper, conversion.kind ≠ .hex upper := by rcases hkind with hkind | hkind <;> simp [hkind]
  have htext : ∀ grouping digits, LaidOut digits →
      body (conversion.withGrouping grouping) value = .ok (.number (sign conversion.flags negative) digits) →
      ∃ text, convert (conversion.withGrouping grouping) value = .ok text ∧
        Filled conversion.flags (sign conversion.flags negative) digits text := by
    intro grouping digits hlaidOut hbody
    have hfilled := @filled_pad conversion digits (.laidOut hhex hlaidOut) conversion.flags
      (conversion.width.getD 0) (sign conversion.flags negative)
    rw [mark_of_not_hex hhex, List.append_nil, List.nil_append] at hfilled
    exact ⟨_, convert_of_body hbody conversion.width, hfilled⟩
  have hlayout : ∀ c ∈ fraction, isLayoutChar c = true := fun c hc => hpositional.isLayoutChar hc
  refine ⟨negative, whole, fraction, groupThousands whole, hpositional, hdecimal, hgrouped,
    by rw [List.filter_append, hgrouped.filter_eq hwhole, filter_of_notMem hfraction], ?_, ?_⟩
  · exact htext true _ ((hgrouped.laidOut hpositional.whole_digits).append hlayout) (hbody true)
  · exact htext false _ ((laidOut_of_digits hpositional.nonempty hpositional.whole_digits).append hlayout)
      (hbody false)

/-- Whatever the flags and the width, the decimal text of an integer is read as the integer, and its text in the bases
eight and sixteen as its residue.  Commas stand exactly before the groups of three digits of a decimal or fixed
text. -/
theorem integers_read_back (flags : Flags) (width : Option Nat) :
    (∀ n : Int32, ReadsAs readDecimal? ⟨flags, width, none, .decimal⟩ (.int n) n.toInt) ∧
      (∀ n : Int64, ReadsAs readDecimal? ⟨flags, width, none, .decimal⟩ (.long n) n.toInt) ∧
      (∀ kind base, WritesBits kind base →
        (∀ n : Int32, ReadsAs (readBits? base) ⟨flags, width, none, kind⟩ (.int n) (n.toInt % UInt32.size).toNat) ∧
        (∀ n : Int64, ReadsAs (readBits? base) ⟨flags, width, none, kind⟩ (.long n) (n.toInt % UInt64.size).toNat)) ∧
      (∀ precision kind value, kind = .decimal ∨ kind = .fixed →
        Conversion.Fits ⟨flags, width, precision, kind⟩ value → IsFinite value →
        ∃ negative whole fraction grouped,
          GroupsWhole ⟨flags, width, precision, kind⟩ value negative whole fraction grouped) := by
  refine ⟨fun n => readsAs_decimal rfl rfl rfl, fun n => readsAs_decimal rfl rfl rfl, fun kind base hkind => ?_,
    fun precision kind value hkind hfits hfinite => exists_groupsWhole hkind hfits hfinite⟩
  exact ⟨fun n => readsAs_bits hkind rfl (bits?_int n), fun n => readsAs_bits hkind rfl (bits?_long n)⟩

/-- The least integers, and groups of a fixed text. -/
theorem integers_read_back_least :
    ReadsAs readDecimal? ⟨{ zeroPad := true, grouping := true }, some 30, none, .decimal⟩ (.long Int64.minValue)
        (-9223372036854775808) ∧
      ReadsAs (readBits? 16) ⟨{ zeroPad := true, alternate := true }, some 30, none, .hex true⟩ (.int Int32.minValue)
        0x80000000 ∧
      ∃ negative whole fraction grouped,
        GroupsWhole ⟨{ grouping := true }, some 30, some 2, .fixed⟩ (.float (.finite true 12345678 (-3))) negative whole
          fraction grouped := by
  refine ⟨(integers_read_back _ _).2.1 Int64.minValue,
    ((integers_read_back _ _).2.2.1 _ _ (.hex true)).1 Int32.minValue,
    (integers_read_back _ _).2.2.2 _ _ _ (.inr rfl) ⟨by decide, by decide, nofun, trivial⟩ rfl⟩

example : render (.long Int64.minValue) (some "%,d") = .ok "-9,223,372,036,854,775,808" := by decide +kernel

end Phrasebook.Format
