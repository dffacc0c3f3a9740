import Phrasebook.Proofs.Format.Rendering

/-!
# The faults of a spec and a value

`Fault` lists what can be wrong with rendering a value with a spec, each thing by itself.  A value is rendered if
nothing is wrong; otherwise the error is the first of the faults in the order of `Error.rank`
(`rendering_fails_by_first_fault`).  A conversion fails by its precision or because it does not suit the value
(`body_eq_error_iff`); the checks of its width and precision come before (`checked_eq_error_iff`).
-/

namespace Phrasebook.Format

/-! ### Values that suit a conversion -/

/-- The value is an integer. -/
def IsInteger : Value → Prop
  | .int _ | .long _ => True
  | .float _ | .text _ => False

/-- The value is a number. -/
def IsNumber : Value → Prop
  | .int _ | .long _ | .float _ => True
  | .text _ => False

/-- The number is the code point of a character: in range, and no surrogate. -/
def IsCodePoint (n : Int) : Prop :=
  0 ≤ n ∧ n < 0xD800 ∨ 0xDFFF < n ∧ n < 0x110000

/-- The value is one character, or its code point. -/
def IsCharacter : Value → Prop
  | .int n => IsCodePoint n.toInt
  | .long n => IsCodePoint n.toInt
  | .float _ => False
  | .text s => s.length = 1

/-- A conversion of this kind can be applied to the value. -/
def Kind.Suits (value : Value) : Kind → Prop
  | decimal | hex _ | octal => IsInteger value
  | fixed | exponential _ | general _ => IsNumber value
  | text | upperText => True
  | char => IsCharacter value

/-! ### Faults -/

/-- The number given for a field. -/
def Conversion.field (conversion : Conversion) : Field → Option Nat
  | .width => conversion.width
  | .precision => conversion.precision

/-- The conversion has a precision that it must not have. -/
def Conversion.Refused (conversion : Conversion) : Prop :=
  conversion.kind.refusesPrecision = true ∧ conversion.precision.isSome = true

/-- Nothing is wrong with a conversion of a value. -/
structure Conversion.Fits (conversion : Conversion) (value : Value) : Prop where
  width : ∀ n ∈ conversion.width, n ≤ 1024
  precision : ∀ n ∈ conversion.precision, n ≤ 1024
  allowed : conversion.kind.refusesPrecision = true → conversion.precision = none
  suits : conversion.kind.Suits value

/-- What is wrong with a conversion of a value. -/
inductive ConversionFault (conversion : Conversion) (value : Value) : Error → Prop
  | tooLarge {field : Field} {n : Nat} (given : conversion.field field = some n) (large : fieldLimit < n) :
      ConversionFault conversion value (.fieldTooLarge field n)
  | precision (refused : conversion.Refused) :
      ConversionFault conversion value (.precision conversion.kind.letter)
  | unsuited (not_suits : ¬ conversion.kind.Suits value) :
      ConversionFault conversion value (unsuited conversion.kind value)

/-- The conversions among the pieces of a spec. -/
def conversions (pieces : List Piece) : List Conversion :=
  pieces.filterMap Piece.conversion?

/-- What is wrong with a spec for a value. -/
inductive Fault (spec : String) (value : Value) : Error → Prop
  | spec {error : SpecError} (unread : parse spec = .error error) : Fault spec value (.spec error)
  | multipleConversions {pieces : List Piece} (read : parse spec = .ok pieces)
      (many : 1 < (conversions pieces).length) :
      Fault spec value (.multipleConversions (conversions pieces).length)
  | conversion {pieces : List Piece} {conversion : Conversion} {error : Error} (read : parse spec = .ok pieces)
      (mem : conversion ∈ conversions pieces) (fault : ConversionFault conversion value error) :
      Fault spec value error

/-- The place of an error in the order in which the faults are found. -/
def Error.rank : Error → Nat
  | spec _ => 0
  | multipleConversions _ => 1
  | fieldTooLarge .width _ => 2
  | fieldTooLarge .precision _ => 3
  | precision _ => 4
  | incompatible _ _ _ => 5

/-- The fault comes before all others. -/
def First (fault : Error → Prop) (error : Error) : Prop :=
  fault error ∧ ∀ other, fault other → error.rank ≤ other.rank

variable {spec : String} {ps : List Piece} {conversion : Conversion} {value : Value} {error : Error}

/-! ### Conversions -/

theorem isSome_toInt?_iff : value.toInt?.isSome = true ↔ IsInteger value := by
  cases value <;> simp [Value.toInt?, IsInteger]

private theorem isSome_bits?_iff : (bits? value).isSome = true ↔ IsInteger value := by
  cases value <;> simp [bits?, IsInteger]

theorem isSome_double?_iff : (double? value).isSome = true ↔ IsNumber value := by
  cases value <;> simp [double?, Value.toBinary64?, IsNumber]

private theorem isSome_ofCodePoint?_iff {n : Int} : (character?.ofCodePoint? n).isSome = true ↔ IsCodePoint n := by
  unfold character?.ofCodePoint? IsCodePoint Nat.isValidChar
  split
  · next h => simp only [Option.isSome_some, true_iff]; omega
  · next h => simp only [Option.isSome_none, Bool.false_eq_true, false_iff]; omega

private theorem isSome_character?_iff : (character? value).isSome = true ↔ IsCharacter value := by
  cases value with
  | int n => exact isSome_ofCodePoint?_iff
  | long n => exact isSome_ofCodePoint?_iff
  | float x => simp [character?, IsCharacter]
  | text s =>
    unfold character? IsCharacter
    dsimp only
    rw [← String.length_toList]
    split
    · next c hs => simp [hs]
    · next hs => simpa [List.length_eq_one_iff] using hs

/-- If the precision is not refused, it depends on the kind and the value whether a conversion fails. -/
theorem body_of_not_refused (hrefused : ¬ conversion.Refused) :
    conversion.kind.Suits value ∧ (∃ made, body conversion value = .ok made) ∨
      ¬ conversion.kind.Suits value ∧ body conversion value = .error (unsuited conversion.kind value) := by
  obtain ⟨flags, width, precision, kind⟩ := conversion
  have hreject : kind.refusesPrecision = true → rejectPrecision ⟨flags, width, precision, kind⟩ = .ok () := by
    intro hkind
    simp_all [rejectPrecision, Conversion.Refused]
  cases kind with
  | decimal =>
    simp only [Kind.Suits, ← isSome_toInt?_iff, body, hreject rfl, bind, Except.bind]
    cases value.toInt? with
    | none => exact .inr ⟨Bool.false_ne_true, rfl⟩
    | some n => exact .inl ⟨rfl, _, rfl⟩
  | hex | octal =>
    simp only [Kind.Suits, ← isSome_bits?_iff, body, hreject rfl, bind, Except.bind]
    cases bits? value with
    | none => exact .inr ⟨Bool.false_ne_true, rfl⟩
    | some n => exact .inl ⟨rfl, _, rfl⟩
  | fixed | exponential | general =>
    simp only [Kind.Suits, ← isSome_double?_iff, body]
    cases double? value with
    | none => exact .inr ⟨Bool.false_ne_true, rfl⟩
    | some x => exact .inl ⟨rfl, _, rfl⟩
  | text | upperText => exact .inl ⟨trivial, _, rfl⟩
  | char =>
    simp only [Kind.Suits, ← isSome_character?_iff, body, hreject rfl, bind, Except.bind]
    cases character? value with
    | none => exact .inr ⟨Bool.false_ne_true, rfl⟩
    | some c => exact .inl ⟨rfl, _, rfl⟩

/-- What a conversion that fails says. -/
theorem body_eq_error_iff : body conversion value = .error error ↔
    conversion.Refused ∧ error = .precision conversion.kind.letter ∨
      ¬ conversion.Refused ∧ ¬ conversion.kind.Suits value ∧ error = unsuited conversion.kind value := by
  by_cases hrefused : conversion.Refused
  · simp [hrefused, body_of_refused hrefused.1 hrefused.2, eq_comm]
  · rcases @body_of_not_refused conversion value hrefused with ⟨hsuits, made, hbody⟩ | ⟨hsuits, hbody⟩
    · simp [hrefused, hsuits, hbody]
    · simp [hrefused, hsuits, hbody, eq_comm]

theorem exists_body_iff : (∃ made, body conversion value = .ok made) ↔
    ¬ conversion.Refused ∧ conversion.kind.Suits value := by
  by_cases hrefused : conversion.Refused
  · simp [hrefused, body_of_refused hrefused.1 hrefused.2]
  · rcases @body_of_not_refused conversion value hrefused with ⟨hsuits, hbody⟩ | ⟨hsuits, hbody⟩
    · simp [hrefused, hsuits, hbody]
    · simp [hrefused, hsuits, hbody]

theorem Conversion.Fits.not_refused (h : conversion.Fits value) : ¬ conversion.Refused := by
  rintro ⟨hkind, hgiven⟩
  rw [h.allowed hkind] at hgiven
  cases hgiven

/-! ### The order of the checks -/

theorem checkField_eq_ok_iff {field : Field} {number : Option Nat} :
    checkField field number = .ok () ↔ ∀ n ∈ number, n ≤ 1024 := by
  unfold checkField
  split
  · split <;> simp_all [fieldLimit]
  · simp

theorem checkField_eq_error_iff {field : Field} {number : Option Nat} :
    checkField field number = .error error ↔ ∃ n, number = some n ∧ fieldLimit < n ∧ error = .fieldTooLarge field n := by
  unfold checkField
  split
  · next n =>
    split
    · next hlarge => simp [hlarge, eq_comm]
    · next hlarge => simp [hlarge]
  · simp

/-- A conversion with the checks of its fields before it. -/
def checked (conversion : Conversion) (value : Value) : Except Error Body := do
  checkField .width conversion.width
  checkField .precision conversion.precision
  body conversion value

theorem exists_checked_iff : (∃ made, checked conversion value = .ok made) ↔ conversion.Fits value := by
  constructor
  · rintro ⟨made, h⟩
    obtain ⟨⟨⟩, hwidth, h⟩ := Except.bind_eq_ok_iff.1 h
    obtain ⟨⟨⟩, hprecision, hbody⟩ := Except.bind_eq_ok_iff.1 h
    obtain ⟨hrefused, hsuits⟩ := exists_body_iff.1 ⟨made, hbody⟩
    refine ⟨checkField_eq_ok_iff.1 hwidth, checkField_eq_ok_iff.1 hprecision, fun hkind => ?_, hsuits⟩
    exact Option.not_isSome_iff_eq_none.1 fun hgiven => hrefused ⟨hkind, hgiven⟩
  · intro hfits
    obtain ⟨made, hbody⟩ := exists_body_iff.2 ⟨hfits.not_refused, hfits.suits⟩
    refine ⟨made, Except.bind_eq_ok_iff.2 ⟨(), checkField_eq_ok_iff.2 hfits.width, ?_⟩⟩
    exact Except.bind_eq_ok_iff.2 ⟨(), checkField_eq_ok_iff.2 hfits.precision, hbody⟩

/-- Nothing is wrong if no fault can be named. -/
theorem Conversion.Fits.not_fault (h : conversion.Fits value) : ¬ ConversionFault conversion value error := by
  rintro (@⟨field, n, hgiven, hlarge⟩ | hrefused | hsuits)
  · cases field with
    | width => exact absurd (h.width n hgiven) (Nat.not_le_of_lt hlarge)
    | precision => exact absurd (h.precision n hgiven) (Nat.not_le_of_lt hlarge)
  · exact h.not_refused hrefused
  · exact hsuits h.suits

private theorem not_tooLarge {field : Field} {n : Nat} (h : checkField field (conversion.field field) = .ok ())
    (hgiven : conversion.field field = some n) : ¬ fieldLimit < n :=
  Nat.not_lt_of_le (checkField_eq_ok_iff.1 h n hgiven)

/-- The checks find the first fault. -/
theorem first_of_checked_eq_error (h : checked conversion value = .error error) :
    First (ConversionFault conversion value) error := by
  -- The checks run in the order of the ranks; each one that passes rules its fault out.
  rcases Except.bind_eq_error_iff.1 h with hwidth | ⟨⟨⟩, hwidth, h⟩
  · obtain ⟨n, hgiven, hlarge, rfl⟩ := checkField_eq_error_iff.1 hwidth
    refine ⟨.tooLarge (show conversion.field .width = some n from hgiven) hlarge, ?_⟩
    rintro _ (@⟨_ | _, m, -, -⟩ | - | -) <;> simp [Error.rank, unsuited]
  rcases Except.bind_eq_error_iff.1 h with hprecision | ⟨⟨⟩, hprecision, h⟩
  · obtain ⟨n, hgiven, hlarge, rfl⟩ := checkField_eq_error_iff.1 hprecision
    refine ⟨.tooLarge (show conversion.field .precision = some n from hgiven) hlarge, ?_⟩
    rintro _ (@⟨_ | _, m, hgiven, hlarge⟩ | - | -)
    · exact absurd hlarge (not_tooLarge hwidth hgiven)
    all_goals simp [Error.rank, unsuited]
  have hfields : ∀ field, checkField field (conversion.field field) = .ok ()
    | .width => hwidth
    | .precision => hprecision
  rcases body_eq_error_iff.1 h with ⟨hrefused, rfl⟩ | ⟨hrefused, hsuits, rfl⟩
  · refine ⟨.precision hrefused, ?_⟩
    rintro _ (@⟨field, m, hgiven, hlarge⟩ | - | -)
    · exact absurd hlarge (not_tooLarge (hfields field) hgiven)
    all_goals simp [Error.rank, unsuited]
  · refine ⟨.unsuited hsuits, ?_⟩
    rintro _ (@⟨field, m, hgiven, hlarge⟩ | hrefused' | -)
    · exact absurd hlarge (not_tooLarge (hfields field) hgiven)
    · exact absurd hrefused' hrefused
    · exact Nat.le_refl _

/-- Two faults of a conversion at the same place in the order are the same. -/
theorem eq_of_rank_eq {other : Error} (h : ConversionFault conversion value error)
    (hother : ConversionFault conversion value other) (hrank : error.rank = other.rank) : error = other := by
  rcases h with @⟨_ | _, n, hgiven, -⟩ | - | - <;> rcases hother with @⟨_ | _, m, hgiven', -⟩ | - | - <;>
    simp_all [Error.rank, unsuited]

theorem checked_eq_error_iff :
    checked conversion value = .error error ↔ First (ConversionFault conversion value) error := by
  refine ⟨first_of_checked_eq_error, fun hfirst => ?_⟩
  cases hchecked : checked conversion value with
  | ok made => exact absurd hfirst.1 (exists_checked_iff.1 ⟨made, hchecked⟩).not_fault
  | error other =>
    have hother := first_of_checked_eq_error hchecked
    rw [eq_of_rank_eq hother.1 hfirst.1 (Nat.le_antisymm (hother.2 _ hfirst.1) (hfirst.2 _ hother.1))]

/-! ### Specs -/

theorem mem_conversions_iff : conversion ∈ conversions ps ↔ .conversion conversion ∈ ps := by
  unfold conversions
  rw [List.mem_filterMap]
  constructor
  · rintro ⟨_ | _, hmem, heq⟩
    · cases heq
    · obtain rfl := Option.some.inj heq
      exact hmem
  · exact fun hmem => ⟨_, hmem, rfl⟩

theorem render_of_unread {reason : SpecError} (h : parse spec = .error reason) :
    render value (some spec) = .error (.spec reason) := by
  refine renderWith_of_validate_error ?_ value
  simp [validate, h, Except.mapError, bind, Except.bind]

private theorem validate_of_read (h : parse spec = .ok ps) :
    validate spec = match conversions ps with
      | [] => .ok ps
      | [conversion] => do
        checkField .width conversion.width
        checkField .precision conversion.precision
        return ps
      | found => .error (.multipleConversions found.length) := by
  unfold validate
  rw [h]
  rfl

theorem render_of_many (h : parse spec = .ok ps) (hmany : 1 < (conversions ps).length) :
    render value (some spec) = .error (.multipleConversions (conversions ps).length) := by
  refine renderWith_of_validate_error ?_ value
  rw [validate_of_read h]
  split <;> simp_all

private theorem eq_of_mem {found : List Conversion} {other : Conversion} (hone : found.length ≤ 1)
    (hmem : conversion ∈ found) (hother : other ∈ found) : conversion = other := by
  rcases found with _ | ⟨_, _ | ⟨_, _⟩⟩ <;> simp_all

/-- The pieces fail exactly by their conversion. -/
theorem renderPieces_eq_error_iff (hone : (conversions ps).length ≤ 1) :
    renderPieces value ps = .error error ↔ ∃ conversion ∈ conversions ps, body conversion value = .error error := by
  constructor
  · intro h
    obtain ⟨conversion, hmem, hbody⟩ := exists_body_error_of_renderPieces_error h
    exact ⟨conversion, mem_conversions_iff.2 hmem, hbody⟩
  · rintro ⟨conversion, hmem, hbody⟩
    cases hrender : renderPieces value ps with
    | ok text =>
      obtain ⟨here, hhere⟩ := exists_convert_of_renderPieces (mem_conversions_iff.1 hmem) hrender
      rw [convert, hbody] at hhere
      cases hhere
    | error other =>
      obtain ⟨conversion', hmem', hbody'⟩ := exists_body_error_of_renderPieces_error hrender
      obtain rfl := eq_of_mem hone (mem_conversions_iff.2 hmem') hmem
      rw [Except.error.inj (hbody'.symm.trans hbody)]

theorem render_eq_error_iff (h : parse spec = .ok ps) (hone : (conversions ps).length ≤ 1) :
    render value (some spec) = .error error ↔
      ∃ conversion ∈ conversions ps, checked conversion value = .error error := by
  have hpieces := @renderPieces_eq_error_iff ps value error hone
  have hvalidate := validate_of_read h
  rcases hps : conversions ps with _ | ⟨conversion, _ | ⟨_, _⟩⟩
  · rw [hps] at hvalidate hpieces
    rw [render, renderWith_of_validate_ok hvalidate, Except.map_eq_error_iff, hpieces]
    simp only [List.not_mem_nil, false_and]
  · simp only [hps, List.mem_singleton, exists_eq_left] at hvalidate hpieces ⊢
    simp [render, renderWith, hvalidate, hpieces, checked]
  · simp [hps] at hone

/-- If the spec has one conversion at most, its faults are those of the conversion. -/
theorem fault_iff (h : parse spec = .ok ps) (hone : (conversions ps).length ≤ 1) :
    Fault spec value error ↔ ∃ conversion ∈ conversions ps, ConversionFault conversion value error := by
  constructor
  · rintro (hunread | ⟨hread, hmany⟩ | ⟨hread, hmem, hfault⟩)
    · rw [h] at hunread
      cases hunread
    · obtain rfl := Except.ok.inj (h.symm.trans hread)
      omega
    · obtain rfl := Except.ok.inj (h.symm.trans hread)
      exact ⟨_, hmem, hfault⟩
  · rintro ⟨conversion, hmem, hfault⟩
    exact .conversion h hmem hfault

theorem first_fault_iff (h : parse spec = .ok ps) (hone : (conversions ps).length ≤ 1) :
    First (Fault spec value) error ↔
      ∃ conversion ∈ conversions ps, First (ConversionFault conversion value) error := by
  simp only [First, fault_iff h hone]
  constructor
  · rintro ⟨⟨conversion, hmem, hfault⟩, hfirst⟩
    exact ⟨conversion, hmem, hfault, fun other hother => hfirst other ⟨conversion, hmem, hother⟩⟩
  · rintro ⟨conversion, hmem, hfault, hfirst⟩
    refine ⟨⟨conversion, hmem, hfault⟩, ?_⟩
    rintro other ⟨conversion', hmem', hother⟩
    obtain rfl := eq_of_mem hone hmem' hmem
    exact hfirst other hother

private theorem first_iff_of_least {fault : Error → Prop} {least : Error} (h : fault least)
    (hleast : ∀ other, fault other → other = least ∨ least.rank < other.rank) :
    First fault error ↔ error = least := by
  constructor
  · rintro ⟨hfault, hfirst⟩
    exact (hleast error hfault).resolve_right (Nat.not_lt_of_le (hfirst least h))
  · rintro rfl
    refine ⟨h, fun other hother => ?_⟩
    rcases hleast other hother with rfl | hlt
    · exact Nat.le_refl _
    · exact Nat.le_of_lt hlt

theorem first_fault_of_unread {reason : SpecError} (h : parse spec = .error reason) :
    First (Fault spec value) error ↔ error = .spec reason := by
  refine first_iff_of_least (.spec h) ?_
  rintro other (hunread | ⟨hread, -⟩ | ⟨hread, -, -⟩)
  · obtain rfl := Except.error.inj (h.symm.trans hunread)
    exact .inl rfl
  · rw [h] at hread
    cases hread
  · rw [h] at hread
    cases hread

theorem first_fault_of_many (h : parse spec = .ok ps) (hmany : 1 < (conversions ps).length) :
    First (Fault spec value) error ↔ error = .multipleConversions (conversions ps).length := by
  refine first_iff_of_least (.multipleConversions h hmany) ?_
  rintro other (hunread | ⟨hread, -⟩ | ⟨-, -, hfault⟩)
  · rw [h] at hunread
    cases hunread
  · obtain rfl := Except.ok.inj (h.symm.trans hread)
    exact .inl rfl
  · rcases hfault with @⟨_ | _, n, -, -⟩ | - | - <;> simp [Error.rank, unsuited]

/-- The error that rendering gives is the first of the faults. -/
theorem render_eq_error_iff_first : render value (some spec) = .error error ↔ First (Fault spec value) error := by
  cases hparse : parse spec with
  | error reason =>
    rw [first_fault_of_unread hparse, render_of_unread hparse, Except.error.injEq, eq_comm]
  | ok ps =>
    rcases Nat.lt_or_ge 1 (conversions ps).length with hmany | hone
    · rw [first_fault_of_many hparse hmany, render_of_many hparse hmany, Except.error.injEq, eq_comm]
    · simp only [render_eq_error_iff hparse hone, first_fault_iff hparse hone, checked_eq_error_iff]

theorem exists_render_iff : (∃ text, render value (some spec) = .ok text) ↔
    ∃ pieces, parse spec = .ok pieces ∧ (conversions pieces).length ≤ 1 ∧
      ∀ conversion ∈ conversions pieces, conversion.Fits value := by
  cases hparse : parse spec with
  | error reason => simp [render_of_unread hparse]
  | ok ps =>
    simp only [Except.ok.injEq, exists_eq_left', ← exists_checked_iff]
    rcases Nat.lt_or_ge 1 (conversions ps).length with hmany | hone
    · simp [render_of_many hparse hmany, Nat.not_le_of_lt hmany]
    · simp only [Except.exists_eq_ok_iff, ne_eq, render_eq_error_iff hparse hone, hone, true_and]
      grind

/-- A value is rendered with a spec exactly if the spec is read, has one conversion at most, and the conversion fits the
value.  Otherwise the error is the first of the faults. -/
theorem rendering_fails_by_first_fault (spec : String) (value : Value) :
    ((∃ text, render value (some spec) = .ok text) ↔
      ∃ pieces, parse spec = .ok pieces ∧ (conversions pieces).length ≤ 1 ∧
        ∀ conversion ∈ conversions pieces, conversion.Fits value) ∧
    ∀ error, render value (some spec) = .error error ↔ First (Fault spec value) error :=
  ⟨exists_render_iff, fun _ => render_eq_error_iff_first⟩

example : render (.text "ab") (some "%2000.3d") = .error (.fieldTooLarge .width 2000) := by decide +kernel

end Phrasebook.Format
