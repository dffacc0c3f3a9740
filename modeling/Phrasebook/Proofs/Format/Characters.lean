import Phrasebook.Proofs.Format.Numbers
import Phrasebook.Proofs.Template.Placeholder

/-!
# The characters of rendered values

Numbers are written with letters, digits, signs, points, commas and blanks (`numeric_of_makes`), and a width adds
blanks and zeros (`mem_pad`).  So a rendered text has a brace only if there is one in the spec or in the natural text of
the value, or if a conversion to a character makes one from its code point (`braceFree_of_renderWith`).
-/

namespace Phrasebook.Format

/-- The characters that numbers are written with. -/
def isNumeral (c : Char) : Bool :=
  c.isAlphanum || c == '+' || c == '-' || c == '.' || c == ',' || c == ' '

/-- The text has characters of numbers only. -/
def Numeric (text : List Char) : Prop :=
  ∀ c ∈ text, isNumeral c = true

instance (text : List Char) : Decidable (Numeric text) :=
  List.decidableBAll (fun c => isNumeral c = true) text

@[simp] theorem numeric_nil : Numeric [] := by simp [Numeric]

@[simp] theorem numeric_append {xs ys : List Char} : Numeric (xs ++ ys) ↔ Numeric xs ∧ Numeric ys := by
  simp only [Numeric, List.mem_append, or_imp, forall_and]

/-! ### Digits -/

private theorem isNumeral_of_mem_digitAlphabet {c : Char} (h : c ∈ digitAlphabet) : isNumeral c = true := by
  have hall : digitAlphabet.all isNumeral = true := by decide
  exact List.all_eq_true.1 hall c h

theorem numeric_hexDigits (upper : Bool) (n : Nat) : Numeric (hexDigits upper n) :=
  fun _ hc => isNumeral_of_mem_digitAlphabet (mem_digitAlphabet_of_hexDigits hc)

theorem numeric_of_laidOut {text : List Char} (h : Decimal.LaidOut text) : Numeric text :=
  fun _ hc => isNumeral_of_mem_digitAlphabet (mem_digitAlphabet_of_laidOut h hc)

/-! ### Conversions -/

theorem numeric_sign (flags : Flags) (negative : Bool) : Numeric (sign flags negative) := by
  unfold sign
  split
  · decide
  · split
    · decide
    · split <;> decide

theorem numeric_mark (conversion : Conversion) : Numeric conversion.mark :=
  fun _ hc => of_mem_mark (by decide) hc

theorem numeric_integerDigits (conversion : Conversion) (n : Nat) : Numeric (integerDigits conversion n) := by
  by_cases hhex : ∃ upper, conversion.kind = .hex upper
  · obtain ⟨upper, hkind⟩ := hhex
    rw [integerDigits_of_hex hkind, numeric_append]
    exact ⟨numeric_mark conversion, numeric_hexDigits upper n⟩
  · exact numeric_of_laidOut (laidOut_integerDigits (fun upper hkind => hhex ⟨upper, hkind⟩) n)

theorem numeric_doubleDigits (conversion : Conversion) (x : Binary64) :
    Numeric (doubleDigits (layout conversion) x) := by
  cases x with
  | nan =>
    show Numeric ['N', 'a', 'N']
    decide
  | infinite negative =>
    show Numeric ['I', 'n', 'f', 'i', 'n', 'i', 't', 'y']
    decide
  | finite negative significand exponent => exact numeric_of_laidOut (laidOut_layout conversion _)

theorem numeric_of_makes {conversion : Conversion} {value : Value} {before digits : List Char}
    (h : Makes conversion value (.number before digits)) : Numeric (before ++ digits) := by
  rw [numeric_append]
  cases h with
  | integer => exact ⟨numeric_sign _ _, numeric_integerDigits _ _⟩
  | bits => exact ⟨numeric_sign _ _, numeric_integerDigits _ _⟩
  | double => exact ⟨numeric_sign _ _, numeric_doubleDigits _ _⟩

private theorem mem_zeroFill {c : Char} {before digits : List Char} {count : Nat}
    (h : c ∈ zeroFill before digits count) : c ∈ before ++ digits ∨ c = '0' := by
  have hzero : c ∈ List.replicate count '0' → c = '0' := List.eq_of_mem_replicate
  unfold zeroFill at h
  dsimp only at h
  split at h <;> simp only [List.mem_append, List.mem_cons] at h ⊢ <;> grind

/-- A width adds blanks and zeros. -/
theorem mem_pad {c : Char} {flags : Flags} {width : Nat} {made : Body} (h : c ∈ pad flags width made) :
    c ∈ made.characters ∨ c = ' ' ∨ c = '0' := by
  have hblank : ∀ count, c ∈ List.replicate count ' ' → c = ' ' := fun _ => List.eq_of_mem_replicate
  unfold pad at h
  dsimp only at h
  split at h
  · rcases List.mem_append.1 h with h | h
    · exact .inl h
    · exact .inr (.inl (hblank _ h))
  · split at h
    · split at h
      · rcases mem_zeroFill h with h | h
        · exact .inl h
        · exact .inr (.inr h)
      · rcases List.mem_append.1 h with h | h
        · exact .inr (.inl (hblank _ h))
        · exact .inl h
    · rcases List.mem_append.1 h with h | h
      · exact .inr (.inl (hblank _ h))
      · exact .inl h

/-! ### Braces -/

/-- The character is a brace. -/
def IsBrace (c : Char) : Prop :=
  c = '{' ∨ c = '}'

instance (c : Char) : Decidable (IsBrace c) :=
  inferInstanceAs (Decidable (c = '{' ∨ c = '}'))

theorem braceFree_iff {text : String} : Template.BraceFree text ↔ ∀ c ∈ text.toList, ¬ IsBrace c := by
  simp only [Template.BraceFree, IsBrace, not_or, ne_eq]

private theorem isBrace_toNat {c : Char} (h : IsBrace c) : c.toNat = 123 ∨ c.toNat = 125 := by
  rcases h with rfl | rfl <;> decide

private theorem eq_of_isBrace_ofNat {n : Nat} (h : IsBrace (Char.ofNat n)) : n = 123 ∨ n = 125 := by
  by_cases hvalid : n.isValidChar
  · have hnat : (Char.ofNat n).toNat = n := by
      unfold Char.ofNat
      rw [dif_pos hvalid]
      rfl
    rw [← hnat]
    exact isBrace_toNat h
  · have hnul : Char.ofNat n = Char.ofNat 0 := by
      unfold Char.ofNat
      rw [dif_neg hvalid]
      rfl
    rw [hnul] at h
    exact absurd h (by decide)

private theorem notBrace_upperExpansions :
    ∀ entry ∈ Text.upperExpansions, ∀ n ∈ entry.2, n ≠ 123 ∧ n ≠ 125 := by
  decide +kernel

private theorem notBrace_upperRuns :
    ∀ run ∈ Text.upperRuns, run.upper + (run.last - run.first) < 123 ∨ 125 < run.upper := by
  decide +kernel

private theorem eq_of_isBrace_toUpper :
    ∀ n < 0x80, IsBrace (Char.ofNat n).toUpper → (Char.ofNat n).toUpper = Char.ofNat n := by
  decide +kernel

/-- Upper case makes no braces. -/
theorem eq_of_isBrace_mem_upperChar {c d : Char} (hc : IsBrace c) (h : c ∈ Text.upperChar d) : c = d := by
  unfold Text.upperChar at h
  dsimp only at h
  split at h
  · next hascii =>
    obtain rfl := List.mem_singleton.1 h
    rw [← Char.ofNat_toNat d] at hc ⊢
    exact eq_of_isBrace_toUpper d.toNat hascii hc
  · split at h
    · next expansion hlookup =>
      obtain ⟨n, hn, rfl⟩ := List.mem_map.1 h
      obtain ⟨before, after, hsplit, -⟩ := List.lookup_eq_some_iff.1 hlookup
      have hmem : (d.toNat, expansion) ∈ Text.upperExpansions := by simp [hsplit]
      have hne := notBrace_upperExpansions _ hmem n hn
      rcases eq_of_isBrace_ofNat hc with rfl | rfl
      · exact absurd rfl hne.1
      · exact absurd rfl hne.2
    · split at h
      · next run hfind =>
        obtain rfl := List.mem_singleton.1 h
        have hrun := List.find?_some hfind
        have hout := notBrace_upperRuns run (List.mem_of_find?_eq_some hfind)
        simp only [Bool.and_eq_true, decide_eq_true_eq] at hrun
        rcases eq_of_isBrace_ofNat hc with hn | hn <;> omega
      · exact List.mem_singleton.1 h

/-! ### Specs -/

variable {spec : String} {value : Value} {conversion : Conversion} {c : Char}

private theorem mem_of_piece?_literal {text rest : List Char} {literal : String}
    (h : piece? text = some (.literal literal, rest)) (hc : c ∈ literal.toList) : c ∈ text ∨ c = '\n' := by
  unfold piece? at h
  split at h
  · cases h
  · obtain ⟨hpiece, -⟩ := Prod.mk.inj (Option.some.inj h)
    obtain rfl := Piece.literal.inj hpiece
    obtain rfl : c = '%' := by simpa using hc
    exact .inl List.mem_cons_self
  · obtain ⟨hpiece, -⟩ := Prod.mk.inj (Option.some.inj h)
    obtain rfl := Piece.literal.inj hpiece
    exact .inr (by simpa using hc)
  · obtain ⟨_, _, heq⟩ := Option.map_eq_some_iff.1 h
    cases (Prod.mk.inj heq).1
  · next first tail _ _ _ =>
    obtain ⟨hpiece, -⟩ := Prod.mk.inj (Option.some.inj h)
    obtain rfl := Piece.literal.inj hpiece
    rw [String.toList_ofList] at hc
    exact .inl (List.cons_subset_cons first (List.takeWhile_prefix _).subset hc)

/-- A spec has the characters of its literal pieces, apart from the line feeds that it writes otherwise. -/
theorem mem_of_literal_mem_pieces {text : List Char} {literal : String} (h : .literal literal ∈ (pieces text).1)
    (hc : c ∈ literal.toList) : c ∈ text ∨ c = '\n' := by
  fun_induction pieces text with
  | case1 text hnone => cases h
  | case2 text piece rest hpiece more rest' hmore ih =>
    rcases List.mem_cons.1 h with rfl | h
    · exact mem_of_piece?_literal hpiece hc
    · obtain ⟨first, tail, rfl, hsuffix⟩ := suffix_of_piece? hpiece
      rw [hmore] at ih
      exact (ih h).imp_left fun hmem => List.mem_cons_of_mem _ (hsuffix.subset hmem)

private theorem eq_pieces_of_parse {ps : List Piece} (h : parse spec = .ok ps) : ps = (pieces spec.toList).1 := by
  unfold parse at h
  dsimp only at h
  split at h
  · exact (Except.ok.inj h).symm
  · cases h

theorem eq_pieces_of_validate {ps : List Piece} (h : validate spec = .ok ps) : ps = (pieces spec.toList).1 := by
  unfold validate at h
  obtain ⟨parsed, hparse, h⟩ := Except.bind_eq_ok_iff.1 h
  rw [← eq_pieces_of_parse (Except.mapError_eq_ok_iff.1 hparse)]
  split at h
  · exact (Except.ok.inj h).symm
  · obtain ⟨_, -, h⟩ := Except.bind_eq_ok_iff.1 h
    obtain ⟨_, -, h⟩ := Except.bind_eq_ok_iff.1 h
    exact (Except.ok.inj h).symm
  · cases h

theorem isBrace_of_character? (hc : IsBrace c) (h : character? value = some c) :
    c ∈ value.display.toList ∨ value.toInt? = some 123 ∨ value.toInt? = some 125 := by
  have hcode : ∀ n : Int, character?.ofCodePoint? n = some c → n = 123 ∨ n = 125 := by
    intro n hn
    unfold character?.ofCodePoint? at hn
    split at hn
    · obtain rfl := Option.some.inj hn
      have := eq_of_isBrace_ofNat hc
      omega
    · cases hn
  cases value with
  | int n => exact .inr (by simpa [Value.toInt?] using hcode _ h)
  | long n => exact .inr (by simpa [Value.toInt?] using hcode _ h)
  | float x => cases h
  | text s =>
    unfold character? at h
    dsimp only at h
    split at h
    · next d hs =>
      obtain rfl := Option.some.inj h
      exact .inl (by simp [Value.display, hs])
    · cases h

/-- A brace that a conversion makes is in the natural text of the value, or is the character of its code point. -/
theorem isBrace_of_convert {here : List Char} (hc : IsBrace c) (h : convert conversion value = .ok here)
    (hmem : c ∈ here) : c ∈ value.display.toList ∨
      conversion.kind = .char ∧ (value.toInt? = some 123 ∨ value.toInt? = some 125) := by
  have hnumeral : isNumeral c = false := by rcases hc with rfl | rfl <;> decide
  have hnumber : ∀ {text : List Char}, Numeric text → c ∉ text := by
    intro text htext hmem
    rw [htext c hmem] at hnumeral
    cases hnumeral
  have hshortened : c ∈ shortened conversion.precision value.display.toList → c ∈ value.display.toList := by
    unfold shortened
    split
    · exact fun h => List.mem_of_mem_take h
    · exact id
  obtain ⟨made, hbody, rfl⟩ := Except.map_eq_ok_iff.1 h
  have hmade : c ∈ made.characters := by
    rcases mem_pad hmem with h | rfl | rfl
    · exact h
    · exact absurd hnumeral (by decide)
    · exact absurd hnumeral (by decide)
  cases makes_of_body hbody with
  | integer | bits | double => exact absurd hmade (hnumber (numeric_of_makes (makes_of_body hbody)))
  | text => exact .inl (hshortened hmade)
  | upperText =>
    obtain ⟨d, hd, hupper⟩ := List.mem_flatMap.1 hmade
    obtain rfl := eq_of_isBrace_mem_upperChar hc hupper
    exact .inl (hshortened hd)
  | character kind _ suits =>
    obtain rfl := List.mem_singleton.1 hmade
    exact (isBrace_of_character? hc suits).imp_right fun hcode => ⟨kind, hcode⟩

/-- What is in the text of the pieces is in the text of one of them. -/
private theorem exists_rendered_of_mem {ps : List Piece} {text : List Char} (h : renderPieces value ps = .ok text)
    (hmem : c ∈ text) : ∃ piece ∈ ps, ∃ here, rendered value piece = .ok here ∧ c ∈ here := by
  induction ps generalizing text with
  | nil =>
    obtain rfl := Except.ok.inj h
    cases hmem
  | cons piece rest ih =>
    obtain ⟨here, more, hhere, hrest, rfl⟩ := renderPieces_cons_eq_ok.1 h
    rcases List.mem_append.1 hmem with hmem | hmem
    · exact ⟨piece, List.mem_cons_self, here, hhere, hmem⟩
    · obtain ⟨other, hother, here, hhere, hmem⟩ := ih hrest hmem
      exact ⟨other, List.mem_cons_of_mem _ hother, here, hhere, hmem⟩

/-- The value is the code point of a brace, and the spec writes the character of a code point. -/
def WritesBrace (spec : String) (value : Value) : Prop :=
  (∃ pieces conversion, validate spec = .ok pieces ∧ .conversion conversion ∈ pieces ∧ conversion.kind = .char) ∧
    (value.toInt? = some 123 ∨ value.toInt? = some 125)

/-- A rendered text without braces in its spec and its value has none, if it has not the character of their code
point. -/
theorem braceFree_of_renderWith {text : String} (hspec : Template.BraceFree spec)
    (hvalue : Template.BraceFree value.display) (hwrites : ¬ WritesBrace spec value)
    (h : renderWith spec value = .ok text) : Template.BraceFree text := by
  rw [braceFree_iff] at hspec hvalue ⊢
  intro c hmem hc
  cases hvalidate : validate spec with
  | error error =>
    rw [renderWith_of_validate_error hvalidate] at h
    cases h
  | ok ps =>
    rw [renderWith_of_validate_ok hvalidate] at h
    obtain ⟨made, hrender, rfl⟩ := Except.map_eq_ok_iff.1 h
    obtain ⟨piece, hpiece, here, hhere, hmem⟩ := exists_rendered_of_mem hrender (by simpa using hmem)
    cases piece with
    | literal literal =>
      obtain rfl := Except.ok.inj hhere
      rw [eq_pieces_of_validate hvalidate] at hpiece
      rcases mem_of_literal_mem_pieces hpiece hmem with hmem | rfl
      · exact hspec c hmem hc
      · exact absurd hc (by decide)
    | conversion conversion =>
      rcases isBrace_of_convert hc hhere hmem with hmem | ⟨hkind, hcode⟩
      · exact hvalue c hmem hc
      · exact hwrites ⟨⟨ps, conversion, hvalidate, hpiece, hkind⟩, hcode⟩

end Phrasebook.Format
