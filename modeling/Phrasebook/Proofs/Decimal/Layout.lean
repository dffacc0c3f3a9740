import Phrasebook.Decimal.Layout

/-!
# The shape of decimal layouts

A layout is a text that starts with a digit and has nothing but digits, points, commas and exponents
(`laidOut_fixed`, `laidOut_exponential`, `laidOut_general`).  Without an exponent it is a whole number and maybe a
fraction (`exists_isPositional`).  Grouping puts commas exactly before the groups of three digits counted from the right
(`grouped_groupThousands`).
-/

namespace Phrasebook.Decimal

/-! ### Whole number and fraction -/

/-- At least one digit, and maybe a point with digits after it. -/
structure IsPositional (whole fraction : List Char) : Prop where
  nonempty : whole ≠ []
  whole_digits : ∀ c ∈ whole, c.isDigit = true
  fraction_digits : fraction = [] ∨ ∃ digits, fraction = '.' :: digits ∧ ∀ c ∈ digits, c.isDigit = true

theorem isDigit_of_mem_padded {c : Char} {count n : Nat}
    (h : c ∈ List.replicate count '0' ++ Nat.toDigits 10 n) : c.isDigit = true := by
  rcases List.mem_append.1 h with h | h
  · rw [List.eq_of_mem_replicate h]
    decide
  · exact Nat.isDigit_of_mem_toDigits (by omega) (by omega) h

theorem exists_isPositional (d : Decimal) :
    ∃ whole fraction, d.positional = whole ++ fraction ∧ IsPositional whole fraction := by
  unfold positional
  dsimp only
  split
  · refine ⟨_, [], (List.append_nil _).symm, ⟨?_, ?_, .inl rfl⟩⟩
    · simp [Nat.toDigits_ne_nil]
    · intro c hc
      exact isDigit_of_mem_padded (List.mem_append.2 (List.mem_append.1 hc).symm)
  · refine ⟨_, _, rfl, ⟨?_, ?_, .inr ⟨_, rfl, ?_⟩⟩⟩
    · intro hnil
      have hlength := congrArg List.length hnil
      simp only [List.length_take, List.length_append, List.length_replicate, List.length_nil] at hlength
      omega
    · exact fun c hc => isDigit_of_mem_padded (List.mem_of_mem_take hc)
    · exact fun c hc => isDigit_of_mem_padded (List.mem_of_mem_drop hc)

/-! ### Characters -/

/-- The characters of decimal layouts. -/
def isLayoutChar (c : Char) : Bool :=
  c.isDigit || c == '.' || c == ',' || c == 'e' || c == 'E' || c == '+' || c == '-'

/-- The text starts with a digit and has the characters of layouts only. -/
structure LaidOut (text : List Char) : Prop where
  first : ∃ c ∈ text.head?, c.isDigit = true
  within : ∀ c ∈ text, isLayoutChar c = true

theorem isLayoutChar_of_isDigit {c : Char} (h : c.isDigit = true) : isLayoutChar c = true := by
  simp [isLayoutChar, h]

theorem laidOut_of_digits {digits : List Char} (hne : digits ≠ []) (h : ∀ c ∈ digits, c.isDigit = true) :
    LaidOut digits := by
  obtain ⟨c, tail, rfl⟩ := List.exists_cons_of_ne_nil hne
  exact ⟨⟨c, rfl, h c List.mem_cons_self⟩, fun d hd => isLayoutChar_of_isDigit (h d hd)⟩

theorem LaidOut.append {text rest : List Char} (h : LaidOut text) (hrest : ∀ c ∈ rest, isLayoutChar c = true) :
    LaidOut (text ++ rest) := by
  obtain ⟨⟨c, hc, hdigit⟩, hwithin⟩ := h
  obtain ⟨tail, rfl⟩ := List.head?_eq_some_iff.1 hc
  exact ⟨⟨c, rfl, hdigit⟩, List.forall_mem_append.2 ⟨hwithin, hrest⟩⟩

theorem IsPositional.isLayoutChar {whole fraction : List Char} {c : Char} (h : IsPositional whole fraction)
    (hc : c ∈ fraction) : isLayoutChar c = true := by
  rcases h.fraction_digits with rfl | ⟨digits, rfl, hdigits⟩
  · cases hc
  · rcases List.mem_cons.1 hc with rfl | hc
    · decide
    · exact isLayoutChar_of_isDigit (hdigits c hc)

theorem exists_fixed (x : Rat) (places : Nat) :
    ∃ whole fraction, fixed x places = whole ++ fraction ∧ IsPositional whole fraction :=
  exists_isPositional _

theorem laidOut_fixed (x : Rat) (places : Nat) : LaidOut (fixed x places) := by
  obtain ⟨whole, fraction, hsplit, h⟩ := exists_fixed x places
  rw [hsplit]
  exact (laidOut_of_digits h.nonempty h.whole_digits).append fun c hc => h.isLayoutChar hc

/-- An exponential layout is a number without exponent, a mark and the exponent. -/
theorem exists_exponential (x : Rat) (places : Nat) (upper : Bool) : ∃ whole fraction exponent,
    exponential x places upper = whole ++ fraction ++ (if upper then 'E' else 'e') :: exponent ∧
      IsPositional whole fraction ∧ ∀ c ∈ exponent, isLayoutChar c = true := by
  obtain ⟨whole, fraction, hsplit, h⟩ := exists_isPositional ⟨(significant x places).1, -places⟩
  unfold exponential
  dsimp only
  rw [hsplit]
  refine ⟨whole, fraction, _, rfl, h, fun c hc => ?_⟩
  rcases List.mem_cons.1 hc with rfl | hc
  · split <;> decide
  · exact isLayoutChar_of_isDigit (isDigit_of_mem_padded hc)

theorem laidOut_exponential (x : Rat) (places : Nat) (upper : Bool) : LaidOut (exponential x places upper) := by
  obtain ⟨whole, fraction, exponent, hsplit, h, hexponent⟩ := exists_exponential x places upper
  rw [hsplit, List.append_assoc]
  refine (laidOut_of_digits h.nonempty h.whole_digits).append fun c hc => ?_
  rcases List.mem_append.1 hc with hc | hc
  · exact h.isLayoutChar hc
  · rcases List.mem_cons.1 hc with rfl | hc
    · cases upper <;> decide
    · exact hexponent c hc

/-! ### Trailing zeros -/

theorem dropTrailingZeros_subset (number : List Char) : dropTrailingZeros number ⊆ number := by
  unfold dropTrailingZeros
  split
  · intro c hc
    exact List.mem_reverse.1
      (((List.dropWhile_suffix _).trans (List.dropWhile_suffix _)).subset (List.mem_reverse.1 hc))
  · exact List.Subset.refl _

private theorem dropWhile_append_of_exists {p : Char → Bool} {xs ys : List Char} (h : ∃ c ∈ xs, p c = false) :
    (xs ++ ys).dropWhile p = xs.dropWhile p ++ ys := by
  obtain ⟨c, hc, hp⟩ := h
  rw [List.dropWhile_append, if_neg]
  intro hempty
  have hsplit := List.takeWhile_append_dropWhile (p := p) (l := xs)
  rw [List.isEmpty_iff.1 hempty, List.append_nil] at hsplit
  rw [← hsplit] at hc
  rw [List.all_eq_true.1 List.all_takeWhile c hc] at hp
  cases hp

private theorem suffix_dropWhile_append {p : Char → Bool} (xs : List Char) {ys : List Char}
    (h : ∀ c ∈ ys, p c = false) : ys <:+ (xs ++ ys).dropWhile p := by
  have hys : ys.dropWhile p = ys := by
    cases ys with
    | nil => rfl
    | cons c ys => rw [List.dropWhile_cons_of_neg (by simp [h c])]
  rw [List.dropWhile_append, hys]
  split
  · exact List.suffix_refl _
  · exact List.suffix_append _ _

/-- The digits at the front of a number are kept, if there is a point it is behind them. -/
theorem prefix_dropTrailingZeros {whole : List Char} (rest : List Char) (h : ∀ c ∈ whole, c.isDigit = true) :
    whole <+: dropTrailingZeros (whole ++ rest) := by
  have hpoint : ∀ c ∈ whole.reverse, (c == '.') = false := by
    intro c hc
    rw [beq_eq_false_iff_ne]
    rintro rfl
    exact absurd (h _ (List.mem_reverse.1 hc)) (by decide)
  unfold dropTrailingZeros
  split
  · next hcontains =>
    have hrest : '.' ∈ rest := by
      rcases List.mem_append.1 (List.contains_iff_mem.1 hcontains) with hmem | hmem
      · exact absurd (h _ hmem) (by decide)
      · exact hmem
    rw [List.reverse_append, dropWhile_append_of_exists ⟨'.', List.mem_reverse.2 hrest, by decide⟩,
      ← List.reverse_suffix, List.reverse_reverse]
    exact suffix_dropWhile_append _ hpoint
  · exact List.prefix_append _ _

/-- Dropping zeros in front of a mark keeps the digit that the text starts with. -/
theorem LaidOut.dropTrailingZeros_append {text : List Char} {p : Char → Bool} (h : LaidOut text)
    (hp : ∀ c, c.isDigit = true → p c = true) :
    LaidOut (dropTrailingZeros (text.takeWhile p) ++ text.dropWhile p) := by
  obtain ⟨⟨c, hc, hdigit⟩, hwithin⟩ := h
  obtain ⟨tail, rfl⟩ := List.head?_eq_some_iff.1 hc
  have hsingle : ∀ d ∈ [c], d.isDigit = true := by simpa using hdigit
  obtain ⟨kept, hkept⟩ := prefix_dropTrailingZeros (tail.takeWhile p) hsingle
  have hsubset : kept ⊆ c :: tail.takeWhile p := by
    refine List.Subset.trans (List.subset_append_right [c] kept) ?_
    rw [hkept]
    exact dropTrailingZeros_subset _
  rw [List.takeWhile_cons_of_pos (hp c hdigit), List.dropWhile_cons_of_pos (hp c hdigit), ← List.singleton_append,
    ← hkept, List.append_assoc]
  refine (laidOut_of_digits (List.cons_ne_nil _ _) hsingle).append fun d hd => hwithin d ?_
  rcases List.mem_append.1 hd with hd | hd
  · exact List.cons_subset_cons c (List.takeWhile_prefix _).subset (hsubset hd)
  · exact List.mem_cons_of_mem _ ((List.dropWhile_suffix _).subset hd)

theorem laidOut_general (x : Rat) (precision : Nat) (upper keepZeros : Bool) :
    LaidOut (general x precision upper keepZeros) := by
  have hmark : ∀ c : Char, c.isDigit = true → (!(c == 'e' || c == 'E')) = true := by
    intro c hdigit
    rw [Bool.not_eq_true', Bool.or_eq_false_iff, beq_eq_false_iff_ne, beq_eq_false_iff_ne]
    constructor <;> rintro rfl <;> exact absurd hdigit (by decide)
  have hedited : ∀ text : List Char, LaidOut text → LaidOut (if keepZeros then text else
      dropTrailingZeros (text.takeWhile fun c => !(c == 'e' || c == 'E')) ++
        text.dropWhile fun c => !(c == 'e' || c == 'E')) := by
    intro text htext
    split
    · exact htext
    · exact htext.dropTrailingZeros_append hmark
  refine hedited _ ?_
  split
  · exact laidOut_exponential _ _ _
  · exact laidOut_fixed _ _

/-! ### Groups of digits -/

/-- A comma stands before every group of three digits counted from the right, except in front. -/
inductive Grouped : List Char → List Char → Prop
  | intro {first : List Char} {groups : List (List Char)} (first_nonempty : first ≠ [])
      (first_length : first.length ≤ 3) (length_eq : ∀ group ∈ groups, group.length = 3) :
      Grouped (first ++ groups.flatten) (first ++ groups.flatMap (',' :: ·))

/-- Behind the first group the number of digits is a multiple of three. -/
private theorem length_flatten {groups : List (List Char)} (h : ∀ group ∈ groups, group.length = 3) :
    groups.flatten.length = 3 * groups.length := by
  induction groups with
  | nil => rfl
  | cons group groups ih =>
    have hgroup := h group List.mem_cons_self
    have hgroups := ih fun other hother => h other (List.mem_cons_of_mem _ hother)
    simp only [List.flatten_cons, List.length_append, List.length_cons]
    omega

theorem grouped_groupThousands {digits : List Char} (hne : digits ≠ []) : Grouped digits (groupThousands digits) := by
  induction digits with
  | nil => exact absurd rfl hne
  | cons c rest ih =>
    by_cases hrest : rest = []
    · subst hrest
      exact @Grouped.intro [c] [] (List.cons_ne_nil _ _) (by simp) nofun
    have hgrouped := ih hrest
    generalize hwritten : groupThousands rest = written at hgrouped
    obtain @⟨first, groups, hfirst, hlength, hgroups⟩ := hgrouped
    have hpositive := List.length_pos_iff.2 hfirst
    have hcount : (first ++ groups.flatten).length = first.length + 3 * groups.length := by
      rw [List.length_append, length_flatten hgroups]
    unfold groupThousands
    rw [hwritten]
    split
    · -- The digit is a first group of its own.
      next hmod =>
      have hthree : first.length = 3 := by omega
      exact @Grouped.intro [c] (first :: groups) (List.cons_ne_nil _ _) (by simp)
        (List.forall_mem_cons.2 ⟨hthree, hgroups⟩)
    · next hmod =>
      have hnot : ¬ (first ++ groups.flatten).length % 3 = 0 := fun h => hmod ⟨hrest, h⟩
      exact @Grouped.intro (c :: first) groups (List.cons_ne_nil _ _) (by rw [List.length_cons]; omega) hgroups

theorem filter_of_notMem {digits : List Char} (h : ',' ∉ digits) : digits.filter (· != ',') = digits := by
  refine List.filter_eq_self.2 fun c hc => bne_iff_ne.2 ?_
  rintro rfl
  exact h hc

/-- Without the commas there are the digits. -/
theorem Grouped.filter_eq {digits text : List Char} (h : Grouped digits text) (hdigits : ',' ∉ digits) :
    text.filter (· != ',') = digits := by
  obtain @⟨first, groups, -, -, -⟩ := h
  rw [List.mem_append, not_or] at hdigits
  rw [List.filter_append, filter_of_notMem hdigits.1]
  refine congrArg (first ++ ·) ?_
  have hgroups := hdigits.2
  clear hdigits
  induction groups with
  | nil => rfl
  | cons group groups ih =>
    rw [List.flatten_cons, List.mem_append, not_or] at hgroups
    rw [List.flatMap_cons, List.filter_append, List.filter_cons_of_neg (by decide), filter_of_notMem hgroups.1,
      ih hgroups.2, List.flatten_cons]

theorem Grouped.laidOut {digits text : List Char} (h : Grouped digits text) (hdigits : ∀ c ∈ digits, c.isDigit = true) :
    LaidOut text := by
  obtain @⟨first, groups, hfirst, -, -⟩ := h
  refine (laidOut_of_digits hfirst fun c hc => hdigits c (List.mem_append_left _ hc)).append fun c hc => ?_
  obtain ⟨group, hgroup, hc⟩ := List.mem_flatMap.1 hc
  rcases List.mem_cons.1 hc with rfl | hc
  · decide
  · exact isLayoutChar_of_isDigit
      (hdigits c (List.mem_append_right _ (List.mem_flatten.2 ⟨group, hgroup, hc⟩)))

end Phrasebook.Decimal
