import Phrasebook.Format.Rendering
import Phrasebook.Proofs.Except

/-!
# When rendering fails

A valid spec fails for a value if its conversion does.  Some conversions refuse a precision, whatever the value is
(`body_of_refused`); all others can be applied to the integer 65, which is a number and the code point of a character
(`exists_body_int`).  So a spec is unusable if it is not valid or its conversion has a precision that it refuses
(`unusable_iff`).

Some errors are of the spec alone.  They are those of a spec that is not valid (`isOfSpec_iff_validate_error`).
-/

namespace Phrasebook.Format

/-- The conversions that must not have a precision: those of integers, and of a character. -/
def Kind.refusesPrecision : Kind → Bool
  | decimal | hex _ | octal | char => true
  | fixed | exponential _ | general _ | text | upperText => false

/-- No value can be rendered with the spec. -/
def Unusable (spec : String) : Prop :=
  ∀ value, ∃ error, render value (some spec) = .error error

/-- The spec is valid, but its conversion has a precision that it must not have. -/
def RefusesPrecision (spec : String) : Prop :=
  ∃ pieces conversion, validate spec = .ok pieces ∧ .conversion conversion ∈ pieces ∧
    conversion.kind.refusesPrecision = true ∧ conversion.precision.isSome = true

variable {spec : String} {pieces : List Piece} {conversion : Conversion} {value : Value}

/-! ### Pieces -/

theorem renderWith_of_validate_error {error : Error} (h : validate spec = .error error) (value : Value) :
    renderWith spec value = .error error := by
  unfold renderWith
  rw [h]
  rfl

theorem renderWith_of_validate_ok (h : validate spec = .ok pieces) (value : Value) :
    renderWith spec value = (renderPieces value pieces).map String.ofList := by
  unfold renderWith
  rw [h]
  cases hresult : renderPieces value pieces with
  | error error => simp [hresult, bind, Except.bind, Except.map]
  | ok text => simp [hresult, bind, Except.bind, pure, Except.pure, Except.map]

/-- The text of a piece for a value. -/
def rendered (value : Value) : Piece → Except Error (List Char)
  | .literal text => .ok text.toList
  | .conversion conversion => convert conversion value

theorem renderPieces_cons_eq_ok {piece : Piece} {rest : List Piece} {text : List Char} :
    renderPieces value (piece :: rest) = .ok text ↔ ∃ here more, rendered value piece = .ok here ∧
      renderPieces value rest = .ok more ∧ text = here ++ more := by
  cases piece with
  | literal literal => simp [renderPieces, rendered, @eq_comm _ text]
  | conversion conversion => simp [renderPieces, rendered, @eq_comm _ text]

theorem renderPieces_cons_eq_error {piece : Piece} {rest : List Piece} {error : Error} :
    renderPieces value (piece :: rest) = .error error ↔ rendered value piece = .error error ∨
      (∃ here, rendered value piece = .ok here) ∧ renderPieces value rest = .error error := by
  cases piece with
  | literal literal => simp [renderPieces, rendered]
  | conversion conversion => simp [renderPieces, rendered]

/-- If the pieces can be rendered, each conversion can. -/
theorem exists_convert_of_renderPieces {text : List Char} (hmem : .conversion conversion ∈ pieces)
    (h : renderPieces value pieces = .ok text) : ∃ here, convert conversion value = .ok here := by
  induction pieces generalizing text with
  | nil => cases hmem
  | cons piece rest ih =>
    obtain ⟨here, more, hhere, hrest, -⟩ := renderPieces_cons_eq_ok.1 h
    rcases List.mem_cons.1 hmem with rfl | hmem
    · exact ⟨here, hhere⟩
    · exact ih hmem hrest

/-- The pieces fail by one of their conversions. -/
theorem exists_body_error_of_renderPieces_error {error : Error} (h : renderPieces value pieces = .error error) :
    ∃ conversion, .conversion conversion ∈ pieces ∧ body conversion value = .error error := by
  induction pieces with
  | nil => cases h
  | cons piece rest ih =>
    rcases renderPieces_cons_eq_error.1 h with hhere | ⟨-, hrest⟩
    · cases piece with
      | literal literal => cases hhere
      | conversion conversion =>
        rw [rendered, convert, Except.map_eq_error_iff] at hhere
        exact ⟨conversion, List.mem_cons_self, hhere⟩
    · obtain ⟨conversion, hmem, hbody⟩ := ih hrest
      exact ⟨conversion, List.mem_cons_of_mem _ hmem, hbody⟩

/-! ### Conversions -/

/-- A text that a precision cuts off. -/
def shortened (precision : Option Nat) (text : List Char) : List Char :=
  match precision with
  | some count => text.take count
  | none => text

/-- What a conversion makes of a value that suits it. -/
inductive Makes (conversion : Conversion) (value : Value) : Body → Prop where
  | integer {n : Int} (kind : conversion.kind = .decimal) (precision : conversion.precision = none)
      (suits : value.toInt? = some n) :
      Makes conversion value (.number (sign conversion.flags (n < 0)) (integerDigits conversion n.natAbs))
  | bits {n : Nat} (kind : (∃ upper, conversion.kind = .hex upper) ∨ conversion.kind = .octal)
      (precision : conversion.precision = none) (suits : bits? value = some n) :
      Makes conversion value (.number (sign conversion.flags false) (integerDigits conversion n))
  | double {x : Binary64} (kind : conversion.kind = .fixed ∨ (∃ upper, conversion.kind = .exponential upper) ∨
      ∃ upper, conversion.kind = .general upper) (suits : double? value = some x) :
      Makes conversion value (.number (sign conversion.flags x.isNegative) (doubleDigits (layout conversion) x))
  | text (kind : conversion.kind = .text) :
      Makes conversion value (.text (shortened conversion.precision value.display.toList))
  | upperText (kind : conversion.kind = .upperText) :
      Makes conversion value (.text (Text.upper (shortened conversion.precision value.display.toList)))
  | character {c : Char} (kind : conversion.kind = .char) (precision : conversion.precision = none)
      (suits : character? value = some c) :
      Makes conversion value (.text [c])

theorem body_of_refused (hkind : conversion.kind.refusesPrecision = true)
    (hprecision : conversion.precision.isSome = true) (value : Value) :
    body conversion value = .error (.precision conversion.kind.letter) := by
  have hreject : rejectPrecision conversion = .error (.precision conversion.kind.letter) := by
    simp [rejectPrecision, hprecision]
  obtain ⟨flags, width, precision, kind⟩ := conversion
  cases kind with
  | decimal | hex | octal | char => simp only [body, hreject, bind, Except.bind]
  | fixed | exponential | general | text | upperText => cases hkind

theorem makes_of_body {made : Body} (h : body conversion value = .ok made) : Makes conversion value made := by
  have hnone : conversion.kind.refusesPrecision = true → conversion.precision = none := by
    intro hkind
    cases hprecision : conversion.precision with
    | none => rfl
    | some count =>
      rw [body_of_refused hkind (by rw [hprecision]; rfl)] at h
      cases h
  obtain ⟨flags, width, precision, kind⟩ := conversion
  cases kind with
  | decimal =>
    obtain rfl : precision = none := hnone rfl
    cases hn : value.toInt? with
    | none => simp [body, hn] at h
    | some n =>
      obtain rfl : _ = made := by simpa [body, rejectPrecision, hn] using h
      exact .integer rfl rfl hn
  | hex | octal =>
    obtain rfl : precision = none := hnone rfl
    cases hn : bits? value with
    | none => simp [body, hn] at h
    | some n =>
      obtain rfl : _ = made := by simpa [body, rejectPrecision, hn] using h
      exact .bits (by simp) rfl hn
  | fixed | exponential | general =>
    cases hx : double? value with
    | none => simp [body, hx] at h
    | some x =>
      obtain rfl : _ = made := by simpa [body, hx] using h
      exact .double (by simp) hx
  | text =>
    obtain rfl : _ = made := by simpa [body] using h
    exact .text rfl
  | upperText =>
    obtain rfl : _ = made := by simpa [body] using h
    exact .upperText rfl
  | char =>
    obtain rfl : precision = none := hnone rfl
    cases hc : character? value with
    | none => simp [body, hc] at h
    | some c =>
      obtain rfl : _ = made := by simpa [body, rejectPrecision, hc] using h
      exact .character rfl rfl hc

theorem body_of_makes {made : Body} (h : Makes conversion value made) : body conversion value = .ok made := by
  obtain ⟨flags, width, precision, kind⟩ := conversion
  cases h with
  | integer hkind hprecision hn =>
    obtain rfl : kind = .decimal := hkind
    obtain rfl : precision = none := hprecision
    simp [body, rejectPrecision, hn]
  | bits hkind hprecision hn =>
    obtain rfl : precision = none := hprecision
    obtain ⟨upper, rfl⟩ | rfl : (∃ upper, kind = .hex upper) ∨ kind = .octal := hkind <;>
      simp [body, rejectPrecision, hn]
  | double hkind hx =>
    obtain rfl | ⟨upper, rfl⟩ | ⟨upper, rfl⟩ :
      kind = .fixed ∨ (∃ upper, kind = .exponential upper) ∨ ∃ upper, kind = .general upper := hkind <;>
      simp [body, hx]
  | text hkind =>
    obtain rfl : kind = .text := hkind
    rfl
  | upperText hkind =>
    obtain rfl : kind = .upperText := hkind
    rfl
  | character hkind hprecision hc =>
    obtain rfl : kind = .char := hkind
    obtain rfl : precision = none := hprecision
    simp [body, rejectPrecision, hc]

/-! ### Specs -/

/-- The integer 65 is a number and the code point of a character. -/
theorem exists_body_int (h : ¬ (conversion.kind.refusesPrecision = true ∧ conversion.precision.isSome = true)) :
    ∃ made, body conversion (.int 65) = .ok made := by
  obtain ⟨flags, width, precision, kind⟩ := conversion
  have hreject : kind.refusesPrecision = true → rejectPrecision ⟨flags, width, precision, kind⟩ = .ok () := by
    intro hkind
    simp_all [rejectPrecision]
  cases kind with
  | decimal | hex | octal | char =>
    simp only [body, hreject rfl, bind, Except.bind]
    exact ⟨_, rfl⟩
  | fixed | exponential | general | text | upperText => exact ⟨_, rfl⟩

/-- A spec is unusable if it is not valid, or refuses the precision it has. -/
theorem unusable_iff : Unusable spec ↔ (∃ error, validate spec = .error error) ∨ RefusesPrecision spec := by
  constructor
  · intro h
    cases hvalidate : validate spec with
    | error error => exact .inl ⟨error, rfl⟩
    | ok pieces =>
      obtain ⟨error, herror⟩ := h (.int 65)
      rw [render, renderWith_of_validate_ok hvalidate] at herror
      obtain ⟨conversion, hmem, hbody⟩ :=
        exists_body_error_of_renderPieces_error (Except.map_eq_error_iff.1 herror)
      by_cases hrefuses : conversion.kind.refusesPrecision = true ∧ conversion.precision.isSome = true
      · exact .inr ⟨pieces, conversion, hvalidate, hmem, hrefuses.1, hrefuses.2⟩
      · obtain ⟨made, hmade⟩ := exists_body_int hrefuses
        rw [hbody] at hmade
        cases hmade
  · rintro (⟨error, herror⟩ | ⟨pieces, conversion, hvalidate, hmem, hkind, hprecision⟩) value
    · exact ⟨error, renderWith_of_validate_error herror value⟩
    · rw [render, renderWith_of_validate_ok hvalidate]
      cases hresult : renderPieces value pieces with
      | error error => exact ⟨error, rfl⟩
      | ok text =>
        obtain ⟨here, hhere⟩ := exists_convert_of_renderPieces hmem hresult
        rw [convert, body_of_refused hkind hprecision] at hhere
        cases hhere

/-! ### Errors -/

/-- The error is one of the spec, for which no value is needed. -/
def Error.isOfSpec : Error → Bool
  | .spec _ | .multipleConversions _ | .fieldTooLarge _ _ => true
  | .incompatible _ _ _ | .precision _ => false

private theorem isOfSpec_of_checkField_error {field : Field} {number : Option Nat} {error : Error}
    (h : checkField field number = .error error) : error.isOfSpec = true := by
  unfold checkField at h
  split at h
  · split at h
    · obtain rfl := Except.error.inj h
      rfl
    · cases h
  · cases h

theorem isOfSpec_of_validate_error {error : Error} (h : validate spec = .error error) : error.isOfSpec = true := by
  unfold validate at h
  rcases Except.bind_eq_error_iff.1 h with hparse | ⟨pieces, -, h⟩
  · obtain ⟨reason, -, rfl⟩ := Except.mapError_eq_error_iff.1 hparse
    rfl
  · split at h
    · cases h
    · rcases Except.bind_eq_error_iff.1 h with hwidth | ⟨_, -, h⟩
      · exact isOfSpec_of_checkField_error hwidth
      · rcases Except.bind_eq_error_iff.1 h with hprecision | ⟨_, -, h⟩
        · exact isOfSpec_of_checkField_error hprecision
        · cases h
    · obtain rfl := Except.error.inj h
      rfl

private theorem eq_of_rejectPrecision_error {error : Error} (h : rejectPrecision conversion = .error error) :
    error = .precision conversion.kind.letter := by
  unfold rejectPrecision at h
  split at h
  · exact (Except.error.inj h).symm
  · cases h

/-- A conversion fails by its precision or because the value does not suit it. -/
theorem body_error {error : Error} (h : body conversion value = .error error) :
    error = .precision conversion.kind.letter ∨ error = unsuited conversion.kind value := by
  obtain ⟨flags, width, precision, kind⟩ := conversion
  cases kind with
  | decimal | hex | octal | char =>
    rcases Except.bind_eq_error_iff.1 h with hrejected | ⟨_, -, h⟩
    · exact .inl (eq_of_rejectPrecision_error hrejected)
    · split at h
      · cases h
      · exact .inr (Except.error.inj h).symm
  | fixed | exponential | general =>
    unfold body at h
    dsimp only at h
    split at h
    · cases h
    · exact .inr (Except.error.inj h).symm
  | text | upperText => cases h

theorem not_isOfSpec_of_renderPieces_error {error : Error} (h : renderPieces value pieces = .error error) :
    error.isOfSpec = false := by
  obtain ⟨conversion, -, hbody⟩ := exists_body_error_of_renderPieces_error h
  rcases body_error hbody with rfl | rfl <;> rfl

/-- What is wrong with the spec by itself is what is wrong with it for any value. -/
theorem isOfSpec_iff_validate_error {error : Error} (h : renderWith spec value = .error error) :
    error.isOfSpec = true ↔ validate spec = .error error := by
  cases hvalidate : validate spec with
  | error reason =>
    rw [renderWith_of_validate_error hvalidate] at h
    obtain rfl := Except.error.inj h
    simp [isOfSpec_of_validate_error hvalidate]
  | ok pieces =>
    rw [renderWith_of_validate_ok hvalidate, Except.map_eq_error_iff] at h
    simp [not_isOfSpec_of_renderPieces_error h]

end Phrasebook.Format
