import Phrasebook.Proofs.Format.Numbers

/-!
# Filling with zeros

A finite number is filled with zeros between its mark and its digits, if the flags say so.  The fill looks at the first
character: digits in base sixteen that start with a letter, and have no mark in front of them, are filled with blanks
instead (`zeros_fill_iff`).
-/

namespace Phrasebook.Format

/-- The digits are of base sixteen, have no mark, and start with a letter. -/
structure StartsWithLetter (conversion : Conversion) (digits : List Char) : Prop where
  hex : ∃ upper, conversion.kind = .hex upper
  unmarked : conversion.flags.alternate = false
  letter : ∃ c ∈ digits.head?, c.isAlpha = true

variable {conversion : Conversion} {value : Value} {digits : List Char}

private theorem isAlpha_of_mem_hexDigits {upper : Bool} {n : Nat} {c : Char} (h : c ∈ hexDigits upper n) :
    c.isAlpha = !c.isDigit := by
  have hall : (hexAlphabet.all fun c => c.isAlpha == !c.isDigit) = true := by decide
  exact eq_of_beq (List.all_eq_true.1 hall c (mem_hexAlphabet h))

theorem startsWithDigit_eq_false_iff (h : IsDigits conversion digits) :
    startsWithDigit (conversion.mark ++ digits) = false ↔ StartsWithLetter conversion digits := by
  cases h with
  | @hex upper hkind n =>
    have hmark : conversion.mark = if conversion.flags.alternate then hexMark upper else [] := by
      unfold Conversion.mark
      rw [hkind]
    obtain ⟨c, tail, hdigits⟩ := List.exists_cons_of_ne_nil (hexDigits_ne_nil upper n)
    have hc : c.isAlpha = !c.isDigit := isAlpha_of_mem_hexDigits (hdigits ▸ List.mem_cons_self)
    rw [hmark, hdigits]
    constructor
    · intro hstart
      split at hstart
      · cases hstart
      · next halternate =>
        have hdigit : c.isDigit = false := hstart
        exact ⟨⟨upper, hkind⟩, Bool.eq_false_iff.2 halternate, c, rfl, by rw [hc, hdigit]; rfl⟩
    · rintro ⟨-, halternate, d, hd, hletter⟩
      obtain rfl := Option.some.inj hd
      rw [halternate]
      show c.isDigit = false
      rw [hc] at hletter
      simpa using hletter
  | laidOut hkind hlaidOut =>
    obtain ⟨c, hc, hdigit⟩ := hlaidOut.first
    obtain ⟨tail, rfl⟩ := List.head?_eq_some_iff.1 hc
    rw [mark_of_not_hex hkind, List.nil_append]
    constructor
    · intro hstart
      rw [show startsWithDigit (c :: tail) = c.isDigit from rfl, hdigit] at hstart
      cases hstart
    · rintro ⟨⟨upper, hhex⟩, -, -⟩
      exact absurd hhex (hkind upper)

theorem StartsWithLetter.mark_eq_nil (h : StartsWithLetter conversion digits) : conversion.mark = [] := by
  obtain ⟨upper, hhex⟩ := h.hex
  simp [Conversion.mark, hhex, h.unmarked]

private theorem zero_notMem_sign (flags : Flags) (negative : Bool) : '0' ∉ sign flags negative := by
  unfold sign
  split
  · decide
  · split
    · decide
    · split <;> decide

/-- Blanks in front of a sign and zeros behind it are the same only if there are none. -/
private theorem blanks_eq_zeros_iff {flags : Flags} {negative : Bool} {count : Nat} :
    List.replicate count ' ' ++ (sign flags negative ++ digits) =
      sign flags negative ++ List.replicate count '0' ++ digits ↔ count = 0 := by
  constructor
  · intro heq
    rw [← List.append_assoc, List.append_cancel_right_eq] at heq
    rw [← List.replicate_eq_nil_iff '0', List.eq_nil_iff_forall_not_mem]
    intro c hc
    obtain rfl := List.eq_of_mem_replicate hc
    have hmem : '0' ∈ List.replicate count ' ' ++ sign flags negative := heq ▸ List.mem_append_right _ hc
    rcases List.mem_append.1 hmem with hmem | hmem
    · exact absurd (List.eq_of_mem_replicate hmem) (by decide)
    · exact zero_notMem_sign _ _ hmem
  · rintro rfl
    simp

/-- A finite number with the flag for zeros, and without the one for fill on the right, is filled with zeros between its
mark and its digits.  The exception are digits in base sixteen that start with a letter and have no mark: these are filled
with blanks. -/
theorem zeros_fill_iff (hkind : conversion.kind.isNumeric = true) (hzero : conversion.flags.zeroPad = true)
    (hleft : conversion.flags.leftAlign = false) (hfits : conversion.Fits value) (hfinite : IsFinite value) :
    ∃ negative digits,
      let before := sign conversion.flags negative
      let plain := before ++ conversion.mark ++ digits
      let count := conversion.width.getD 0 - plain.length
      IsDigits conversion digits ∧ ' ' ∉ digits ∧
        convert { conversion with width := none } value = .ok plain ∧
        (convert conversion value = .ok (before ++ conversion.mark ++ List.replicate count '0' ++ digits) ↔
          ¬ (StartsWithLetter conversion digits ∧ 0 < count)) ∧
        (StartsWithLetter conversion digits →
          convert conversion value = .ok (List.replicate count ' ' ++ plain)) := by
  obtain ⟨negative, digits, hbody, hdigits⟩ := exists_digits hkind hfits hfinite
  have hplain := convert_of_body hbody none
  have hconvert := convert_of_body hbody conversion.width
  rw [Option.getD_none, pad_of_le (Nat.zero_le _)] at hplain
  refine ⟨negative, digits, hdigits, hdigits.notMem (by decide), ?_, ?_⟩
  · rw [hplain, Body.characters, List.append_assoc]
  by_cases hletter : StartsWithLetter conversion digits
  · have hstart := (startsWithDigit_eq_false_iff hdigits).2 hletter
    rw [hletter.mark_eq_nil, List.nil_append] at hstart hconvert
    rw [pad_blanks hleft (by rw [hstart, Bool.and_false])] at hconvert
    have hconvert : convert conversion value = _ := hconvert
    rw [hconvert, Except.ok.injEq]
    simp only [hletter.mark_eq_nil, List.append_nil, blanks_eq_zeros_iff, hletter, true_and, Nat.pos_iff_ne_zero,
      Classical.not_not, implies_true, and_self]
  · have hstart : startsWithDigit (conversion.mark ++ digits) = true := by
      rw [← Bool.not_eq_false, startsWithDigit_eq_false_iff hdigits]
      exact hletter
    rw [pad_zeros hdigits hleft hzero hstart] at hconvert
    exact ⟨iff_of_true hconvert fun h => hletter h.1, fun h => absurd h hletter⟩

/-- With a mark the digits of 255 are filled with zeros. -/
theorem zeros_fill_iff_marked :
    Conversion.Fits ⟨{ zeroPad := true, alternate := true }, some 8, none, .hex false⟩ (.int 255) ∧
      IsFinite (.int 255) ∧
      convert ⟨{ zeroPad := true, alternate := true }, some 8, none, .hex false⟩ (.int 255) =
        .ok ['0', 'x', '0', '0', '0', '0', 'f', 'f'] := by
  let conversion : Conversion := ⟨{ zeroPad := true, alternate := true }, some 8, none, .hex false⟩
  have hfits : conversion.Fits (.int 255) := ⟨by decide, by decide, fun _ => rfl, trivial⟩
  refine ⟨hfits, trivial, ?_⟩
  obtain ⟨negative, digits, -, -, hplain, hiff, -⟩ := @zeros_fill_iff conversion (.int 255) rfl rfl rfl hfits trivial
  have hvalue : convert { conversion with width := none } (.int 255) = .ok ['0', 'x', 'f', 'f'] := by decide +kernel
  have hsplit := Except.ok.inj (hvalue.symm.trans hplain)
  cases negative with
  | true => cases (List.cons.inj hsplit).1
  | false =>
    obtain rfl : digits = ['f', 'f'] := (List.cons.inj (List.cons.inj hsplit).2).2.symm
    exact hiff.2 fun h => absurd h.1.unmarked (by decide)

/-- The digits of 255 are filled with blanks, where those of 31 are filled with zeros. -/
theorem letters_filled_with_blanks :
    render (.int 255) (some "%x") = .ok "ff" ∧ render (.int 255) (some "%08x") = .ok "      ff" ∧
      render (.int 255) (some "%08x") ≠ .ok "000000ff" ∧ render (.int 31) (some "%08x") = .ok "0000001f" := by
  decide +kernel

end Phrasebook.Format
