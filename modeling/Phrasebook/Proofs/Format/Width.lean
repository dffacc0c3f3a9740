import Phrasebook.Proofs.Format.Numbers

/-!
# What a width does

A width adds fill to the text of a conversion and nothing else: blanks on one side, or zeros between the mark of a
number and its digits.  The text is as long as the width, unless it is longer anyway (`width_only_fills`).
-/

namespace Phrasebook.Format

open Decimal

variable {conversion : Conversion} {value : Value} {flags : Flags} {width : Nat} {before digits text : List Char}

/-! ### Length -/

private theorem length_zeroFill (before digits : List Char) (count : Nat) :
    (zeroFill before digits count).length = (before ++ digits).length + count := by
  unfold zeroFill
  dsimp only
  split <;> simp only [List.length_append, List.length_cons, List.length_replicate] <;> omega

/-- A body is filled up to the width, if it is not longer. -/
theorem length_pad (flags : Flags) (width : Nat) (made : Body) :
    (pad flags width made).length = max width made.characters.length := by
  have hright : (made.characters ++ List.replicate (width - made.characters.length) ' ').length =
      max width made.characters.length := by
    rw [List.length_append, List.length_replicate]
    omega
  have hleft : (List.replicate (width - made.characters.length) ' ' ++ made.characters).length =
      max width made.characters.length := by
    rw [List.length_append, List.length_replicate]
    omega
  unfold pad
  dsimp only
  split
  · exact hright
  · split
    · split
      · rw [length_zeroFill, Body.characters]
        omega
      · exact hleft
    · exact hleft

/-! ### Shape -/

/-- A text is filled up as the flags say: with blanks on the right or on the left, or, only for a number, with zeros
between its mark and its digits. -/
inductive FilledUp (conversion : Conversion) (text : List Char) : List Char → Prop
  | right (count : Nat) (leftAlign : conversion.flags.leftAlign = true) :
      FilledUp conversion text (text ++ List.replicate count ' ')
  | left (count : Nat) (leftAlign : conversion.flags.leftAlign = false) :
      FilledUp conversion text (List.replicate count ' ' ++ text)
  | zeros (count : Nat) {negative : Bool} {digits : List Char} (numeric : conversion.kind.isNumeric = true)
      (zeroPad : conversion.flags.zeroPad = true) (leftAlign : conversion.flags.leftAlign = false)
      (isDigits : IsDigits conversion digits)
      (split : text = sign conversion.flags negative ++ conversion.mark ++ digits) :
      FilledUp conversion text
        (sign conversion.flags negative ++ conversion.mark ++ List.replicate count '0' ++ digits)

private theorem filledUp_pad {made : Body} (h : body conversion value = .ok made) (width : Nat) :
    FilledUp conversion made.characters (pad conversion.flags width made) := by
  cases hleft : conversion.flags.leftAlign with
  | true =>
    rw [pad_leftAlign hleft]
    exact .right _ hleft
  | false =>
    cases made with
    | text characters =>
      have hpad : pad conversion.flags width (.text characters) =
          List.replicate (width - characters.length) ' ' ++ characters := by
        unfold pad
        dsimp only
        rw [hleft]
        rfl
      rw [hpad]
      exact .left _ hleft
    | number before digits =>
      cases hzero : conversion.flags.zeroPad && startsWithDigit digits with
      | false =>
        rw [pad_blanks hleft hzero]
        exact .left _ hleft
      | true =>
        obtain ⟨hpad, hstart⟩ := Bool.and_eq_true_iff.1 hzero
        obtain ⟨hnumeric, ⟨negative, rfl⟩, ⟨rest, rfl, hrest⟩ | ⟨-, hname⟩⟩ := digits_or_name h
        · rw [pad_zeros hrest hleft hpad hstart]
          exact .zeros _ hnumeric hpad hleft hrest (List.append_assoc _ _ _).symm
        · rw [hstart] at hname
          cases hname

/-- A conversion with a width writes what it writes without one, filled up to the width: with blanks on the right if
the flags say so, else with blanks on the left or, only for a number with the flag for zeros, with zeros between its
mark and its digits. -/
theorem width_only_fills (width : Nat) (h : convert { conversion with width := none } value = .ok text) :
    ∃ filled, convert { conversion with width := some width } value = .ok filled ∧
      filled.length = max width text.length ∧ (width ≤ text.length → filled = text) ∧
      FilledUp conversion text filled := by
  obtain ⟨made, hbody, hpad⟩ := Except.map_eq_ok_iff.1 h
  have hmade : body conversion value = .ok made := by
    rw [← hbody]
    obtain ⟨flags, _, precision, kind⟩ := conversion
    cases kind <;> rfl
  obtain rfl : made.characters = text := by
    rw [← hpad]
    exact (pad_of_le (Nat.zero_le _)).symm
  exact ⟨_, convert_of_body hmade (some width), length_pad _ _ _, pad_of_le, filledUp_pad hmade width⟩

/-- Upper case makes a text longer, and the width counts the characters it has then. -/
theorem width_only_fills_upperText :
    convert ⟨{ zeroPad := true }, none, some 3, .upperText⟩ (.text "aßbc") = .ok ['A', 'S', 'S', 'B'] ∧
      ∃ filled, convert ⟨{ zeroPad := true }, some 6, some 3, .upperText⟩ (.text "aßbc") = .ok filled ∧
        filled.length = 6 := by
  have hplain : convert ⟨{ zeroPad := true }, none, some 3, .upperText⟩ (.text "aßbc") = .ok ['A', 'S', 'S', 'B'] := by
    decide +kernel
  obtain ⟨filled, hfilled, hlength, -⟩ :=
    @width_only_fills ⟨{ zeroPad := true }, none, some 3, .upperText⟩ (.text "aßbc") _ 6 hplain
  exact ⟨hplain, filled, hfilled, hlength⟩

example : render (.float .nan) (some "%06.1f|") = .ok "   NaN|" := by decide +kernel

end Phrasebook.Format
