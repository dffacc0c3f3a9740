import Phrasebook.Proofs.Binary64.Nearest
import Phrasebook.Proofs.Decimal.General
import Phrasebook.Proofs.Format.Integers

/-!
# What is read as a double

The digits of an integer are those of a decimal number without a point, so a text that is read as an integer is read as
a double as well: as the double nearest to it, if the sign of a zero does not count (`exists_read?_of_readInt?`).  No
text with a blank in it is read (`isBlank_of_read?`), so trimming changes nothing that is read (`trim_of_read?`).
-/

namespace Phrasebook

namespace Decimal

variable {text digits : List Char} {n : Int} {d : Decimal}

/-! ### Signs -/

/-- Whether the sign of a text is a minus sign, and the text behind it. -/
def splitSign (text : List Char) : Bool × List Char :=
  match text with
  | '-' :: rest => (true, rest)
  | '+' :: rest => (false, rest)
  | _ => (false, text)

theorem mem_splitSign (text : List Char) : ∀ c ∈ text, c = '-' ∨ c = '+' ∨ c ∈ (splitSign text).2 := by
  unfold splitSign
  split <;> simp +contextual

theorem readInt?_eq_splitSign (text : List Char) : readInt? text =
    if (splitSign text).2 = [] ∨ (splitSign text).2.any (! ·.isDigit) then none
    else some (if (splitSign text).1 then -(ofDigits (splitSign text).2 : Int) else ofDigits (splitSign text).2) := by
  unfold readInt?
  split
  next hsplit =>
    replace hsplit : splitSign text = _ := hsplit
    rw [hsplit, apply_ite some]

theorem readInt?_eq_some_iff : readInt? text = some n ↔
    ((splitSign text).2 ≠ [] ∧ ∀ c ∈ (splitSign text).2, c.isDigit = true) ∧
      (if (splitSign text).1 then -(ofDigits (splitSign text).2 : Int) else ofDigits (splitSign text).2) = n := by
  have hdigits : ¬ ((splitSign text).2 = [] ∨ (splitSign text).2.any (! ·.isDigit) = true) ↔
      (splitSign text).2 ≠ [] ∧ ∀ c ∈ (splitSign text).2, c.isDigit = true := by
    simp
  rw [readInt?_eq_splitSign, ← hdigits]
  split
  · next hrefused => exact iff_of_false nofun fun h => h.1 hrefused
  · next haccepted => rw [Option.some_inj, and_iff_right haccepted]

/-! ### Decimal numbers -/

/-- The decimal text of an integer is read. -/
theorem readInt?_repr (n : Int) : readInt? n.repr.toList = some n := by
  cases n with
  | ofNat m =>
    have hread := Format.ShowsSign.unsigned.readInt?_append 0 m
    simpa [Int.repr, Nat.repr] using hread
  | negSucc m =>
    have hread := Format.ShowsSign.minus.readInt?_append 0 (m + 1)
    simpa [Int.repr, Nat.repr, Int.negSucc_eq] using hread

/-- An integer has the characters of decimal layouts only. -/
theorem isLayoutChar_of_readInt? (h : readInt? text = some n) : ∀ c ∈ text, isLayoutChar c = true := by
  intro c hc
  rcases mem_splitSign text c hc with rfl | rfl | hmem
  · decide
  · decide
  · exact isLayoutChar_of_isDigit ((readInt?_eq_some_iff.1 h).1.2 c hmem)

private theorem isDigit_of_mem_takeWhile {c : Char} (h : c ∈ text.takeWhile Char.isDigit) : c.isDigit = true :=
  List.all_eq_true.1 List.all_takeWhile c h

/-- A decimal number has the characters of decimal layouts only. -/
theorem isLayoutChar_of_read? (h : read? text = some d) : ∀ c ∈ text, isLayoutChar c = true := by
  unfold read? at h
  split at h
  next fraction rest hsplit =>
    -- Behind the digits there may be a point and more digits, and behind these only an exponent.
    have hpoint : ∃ point, text.dropWhile Char.isDigit = point ++ rest ∧ ∀ c ∈ point, isLayoutChar c = true := by
      split at hsplit
      · next behind hdrop =>
        obtain ⟨-, rfl⟩ := Prod.mk.inj hsplit
        refine ⟨'.' :: behind.takeWhile Char.isDigit, ?_, List.forall_mem_cons.2 ⟨by decide, fun c hc => ?_⟩⟩
        · rw [hdrop, List.cons_append, List.takeWhile_append_dropWhile]
        · exact isLayoutChar_of_isDigit (isDigit_of_mem_takeWhile hc)
      · obtain ⟨-, rfl⟩ := Prod.mk.inj hsplit
        exact ⟨[], rfl, nofun⟩
    have hrest : ∀ c ∈ rest, isLayoutChar c = true := by
      dsimp only at h
      split at h
      · cases h
      · split at h
        · exact nofun
        · next mark exponent =>
          split at h
          · next hmark =>
            obtain ⟨e, he, -⟩ := Option.bind_eq_some_iff.1 h
            refine List.forall_mem_cons.2 ⟨?_, isLayoutChar_of_readInt? he⟩
            rcases hmark with rfl | rfl <;> decide
          · cases h
    obtain ⟨point, hdrop, hlayout⟩ := hpoint
    rw [← List.takeWhile_append_dropWhile (p := Char.isDigit) (l := text), hdrop]
    simp only [List.forall_mem_append]
    exact ⟨fun c hc => isLayoutChar_of_isDigit (isDigit_of_mem_takeWhile hc), hlayout, hrest⟩

theorem read?_of_digits (hne : digits ≠ []) (h : ∀ c ∈ digits, c.isDigit = true) :
    read? digits = some ⟨ofDigits digits, 0⟩ := by
  have hread := @read?_pointed digits [] [] 0 hne (by simpa using h) .nothing
  simpa [pointed] using hread

end Decimal

namespace Binary64

open Decimal

variable {text digits : List Char} {x : Binary64} {n : Int} {d : Decimal}

theorem read?_eq_splitSign (text : List Char) : read? text =
    if String.ofList ((splitSign text).2.map Char.toLower) = "inf" ∨
        String.ofList ((splitSign text).2.map Char.toLower) = "infinity" then
      some (infinite (splitSign text).1)
    else if String.ofList ((splitSign text).2.map Char.toLower) = "nan" then some nan
    else (Decimal.read? (splitSign text).2).map (ofDecimal (splitSign text).1) := by
  unfold read?
  split
  next hsplit =>
    replace hsplit : splitSign text = _ := hsplit
    rw [hsplit]

theorem isDouble_ofDecimal (negative : Bool) (d : Decimal) : IsDouble (ofDecimal negative d) := by
  have hd : 0 ≤ d.toRat := mul_nonneg (Nat.cast_nonneg _) (zpow_pos (by norm_num) _).le
  unfold ofDecimal
  dsimp only
  split
  · exact ⟨by omega, le_rfl, by decide⟩
  · split
    · trivial
    · exact isDouble_nearest hd

theorem isDouble_of_read? (h : read? text = some x) : IsDouble x := by
  rw [read?_eq_splitSign] at h
  split at h
  · cases h
    trivial
  · split at h
    · cases h
      trivial
    · obtain ⟨d, -, rfl⟩ := Option.map_eq_some_iff.1 h
      exact isDouble_ofDecimal _ d

/-! ### Names -/

/-- A name of an infinity, or of the number that is not one, in any case. -/
def IsName (text : List Char) : Prop :=
  String.ofList (text.map Char.toLower) ∈ ["inf", "infinity", "nan"]

private theorem toLower_of_toNat {c : Char} (h : c.toNat < 65 ∨ 90 < c.toNat) : c.toLower = c := by
  unfold Char.toLower
  split
  · next hupper =>
    simp only [UInt32.le_iff_toNat_le, ge_iff_le, Char.toNat_val, Char.reduceToNat] at hupper
    omega
  · rfl

/-- A name is made of letters. -/
theorem IsName.letters (h : IsName text) : ∀ c ∈ text, c.isDigit = false ∧ Text.isBlank c = false := by
  have hall : (["inf", "infinity", "nan"].all fun name =>
      name.toList.all fun c => ! c.isDigit && ! Text.isBlank c) = true := by
    decide +kernel
  have hletters : ∀ c ∈ (String.ofList (text.map Char.toLower)).toList, c.isDigit = false ∧ Text.isBlank c = false := by
    intro c hc
    simpa using List.all_eq_true.1 (List.all_eq_true.1 hall _ h) c hc
  intro c hc
  have hsmall : c.toNat < 65 ∨ 90 < c.toNat → c.isDigit = false ∧ Text.isBlank c = false := by
    intro hother
    refine hletters c ?_
    rw [String.toList_ofList, ← toLower_of_toNat hother]
    exact List.mem_map_of_mem hc
  by_contra hnot
  refine hnot (hsmall ?_)
  by_cases hdigit : c.isDigit = true
  · exact .inl (Nat.lt_of_le_of_lt (Char.isDigit_iff_toNat.1 hdigit).2 (by decide))
  · have hblank : Text.isBlank c = true := by simpa [hdigit] using hnot
    simp only [Text.isBlank, Bool.or_eq_true, Bool.and_eq_true, decide_eq_true_eq, beq_iff_eq] at hblank
    omega

theorem not_isName_of_digits (hne : digits ≠ []) (h : ∀ c ∈ digits, c.isDigit = true) : ¬ IsName digits := by
  intro hname
  obtain ⟨c, hc⟩ := List.exists_mem_of_ne_nil _ hne
  have hletter := (hname.letters c hc).1
  rw [h c hc] at hletter
  cases hletter

theorem read?_of_not_isName (h : ¬ IsName (splitSign text).2) :
    read? text = (Decimal.read? (splitSign text).2).map (ofDecimal (splitSign text).1) := by
  simp only [IsName, List.mem_cons, List.not_mem_nil, or_false, not_or] at h
  rw [read?_eq_splitSign, if_neg (not_or.2 ⟨h.1, h.2.1⟩), if_neg h.2.2]

/-! ### Integers -/

theorem ofDecimal_natCast {m : Nat} (hm : m < 2 ^ 64) (negative : Bool) :
    ofDecimal negative ⟨m, 0⟩ = nearest negative m := by
  have hrat : (⟨m, 0⟩ : Decimal).toRat = m := by simp [toRat]
  have hlength : (Nat.toDigits 10 m).length ≤ 20 := (Nat.length_toDigits_le_iff (by omega) (by omega)).2 (by omega)
  unfold ofDecimal
  dsimp only
  split
  · next hzero =>
    have hm' : m = 0 := by omega
    rw [hm', nearest, if_pos Nat.cast_zero]
  · rw [if_neg (by omega), hrat]

private theorem toRat?_nearest_zero (negative : Bool) : (nearest negative 0).toRat? = some 0 := by
  rw [nearest, if_pos rfl, toRat?_finite]
  simp [magnitude, signed]

private theorem toRat?_nearest_natAbs {m : Nat} {negative : Bool} (h : (if negative then -(m : Int) else m) = n) :
    (nearest negative m).toRat? = (ofInt n).toRat? := by
  have hsize : n.natAbs = m := by
    split at h <;> omega
  rw [ofInt, hsize]
  rcases Nat.eq_zero_or_pos m with rfl | hpos
  · rw [Nat.cast_zero, toRat?_nearest_zero, toRat?_nearest_zero]
  · have hsign : decide (n < 0) = negative := by
      cases negative with
      | true =>
        rw [if_pos rfl] at h
        exact decide_eq_true (by omega)
      | false =>
        rw [if_neg Bool.false_ne_true] at h
        exact decide_eq_false (by omega)
    rw [hsign]

/-- What is read as an integer is read as a double, too. -/
theorem exists_read?_of_readInt? (h : readInt? text = some n) (hn : n.natAbs < 2 ^ 64) :
    ∃ x, read? text = some x ∧ x.toRat? = (ofInt n).toRat? := by
  obtain ⟨⟨hne, hdigits⟩, hvalue⟩ := readInt?_eq_some_iff.1 h
  have hmost : ofDigits (splitSign text).2 < 2 ^ 64 := by
    split at hvalue <;> omega
  refine ⟨nearest (splitSign text).1 (ofDigits (splitSign text).2), ?_, toRat?_nearest_natAbs hvalue⟩
  rw [read?_of_not_isName (not_isName_of_digits hne hdigits), read?_of_digits hne hdigits, Option.map_some,
    ofDecimal_natCast hmost]

/-! ### Blanks -/

private theorem isBlank_of_isLayoutChar {c : Char} (h : isLayoutChar c = true) : Text.isBlank c = false := by
  simp only [isLayoutChar, Bool.or_eq_true, beq_iff_eq, or_assoc] at h
  rcases h with hdigit | rfl | rfl | rfl | rfl | rfl | rfl
  · have hbounds : 48 ≤ c.toNat ∧ c.toNat ≤ 57 := Char.isDigit_iff_toNat.1 hdigit
    simp only [Text.isBlank, Bool.or_eq_false_iff, Bool.and_eq_false_iff, decide_eq_false_iff_not, beq_eq_false_iff_ne]
    omega
  all_goals decide

/-- What is read holds no blank. -/
theorem isBlank_of_read? (h : read? text = some x) : ∀ c ∈ text, Text.isBlank c = false := by
  have hbehind : ∀ c ∈ (splitSign text).2, Text.isBlank c = false := by
    intro c hc
    by_cases hname : IsName (splitSign text).2
    · exact (hname.letters c hc).2
    · rw [read?_of_not_isName hname] at h
      obtain ⟨d, hd, -⟩ := Option.map_eq_some_iff.1 h
      exact isBlank_of_isLayoutChar (isLayoutChar_of_read? hd c hc)
  intro c hc
  rcases mem_splitSign text c hc with rfl | rfl | hmem
  · decide
  · decide
  · exact hbehind c hmem

theorem trim_of_read? (h : read? text = some x) : Text.trim text = text := by
  have hne : text ≠ [] := by
    rintro rfl
    cases h
  simpa using Format.trim_of_blanks 0 0 hne (isBlank_of_read? h)

end Binary64

end Phrasebook
