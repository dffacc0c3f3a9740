import Phrasebook.Text.Search

/-!
# Where a marker occurs

`Text.splitAt?` cuts every text with the marker in it (`splitAt?_eq_none_iff`), before the first occurrence
(`of_splitAt?`).

A marker that has its first character nowhere else cannot begin in what stands before another such character and end
behind it (`Headed.infix_append_cons_iff`).  So a text with the marker in it is cut where it was put, if it is not in what
comes before (`Headed.splitAt?_append`).
-/

namespace Phrasebook.Text

variable {marker text before after : List Char}

theorem splitAt?_eq_none_iff : splitAt? marker text = none ↔ ¬ marker <:+: text := by
  induction text with
  | nil =>
    unfold splitAt?
    split <;> simp_all
  | cons c rest ih =>
    rw [List.infix_cons_iff]
    unfold splitAt?
    split
    · next hstart => simp [List.isPrefixOf_iff_prefix.1 hstart]
    · next hstart =>
      rw [List.isPrefixOf_iff_prefix] at hstart
      simp [hstart, ih]

theorem occurs_iff : occurs marker text = true ↔ marker <:+: text := by
  unfold occurs
  rw [Option.isSome_iff_ne_none, ne_eq, splitAt?_eq_none_iff, Classical.not_not]

/-- A text is cut at the first occurrence. -/
theorem of_splitAt? (hmarker : marker ≠ []) (h : splitAt? marker text = some (before, after)) :
    text = before ++ (marker ++ after) ∧ ¬ marker <:+: before := by
  induction text generalizing before with
  | nil =>
    unfold splitAt? at h
    rw [if_neg hmarker] at h
    cases h
  | cons c rest ih =>
    unfold splitAt? at h
    split at h
    · next hstart =>
      obtain ⟨rfl, rfl⟩ := Prod.mk.inj (Option.some.inj h)
      obtain ⟨tail, htail⟩ := List.isPrefixOf_iff_prefix.1 hstart
      rw [← htail, List.drop_left]
      exact ⟨rfl, by simpa using hmarker⟩
    · next hstart =>
      obtain ⟨⟨before', after'⟩, hrest, heq⟩ := Option.map_eq_some_iff.1 h
      obtain ⟨rfl, rfl⟩ := Prod.mk.inj heq
      obtain ⟨rfl, hbefore⟩ := ih hrest
      refine ⟨rfl, fun hinfix => ?_⟩
      rcases List.infix_cons_iff.1 hinfix with hhere | hlater
      · refine hstart (List.isPrefixOf_iff_prefix.2 (hhere.trans ?_))
        exact List.prefix_append (c :: before') _
      · exact hbefore hlater

/-- A text in which the marker occurs has a first occurrence. -/
theorem exists_first_of_infix (hmarker : marker ≠ []) (h : marker <:+: text) :
    ∃ before after, text = before ++ (marker ++ after) ∧ ¬ marker <:+: before := by
  cases hsplit : splitAt? marker text with
  | none => exact absurd h (splitAt?_eq_none_iff.1 hsplit)
  | some pair => exact ⟨pair.1, pair.2, of_splitAt? hmarker hsplit⟩

/-! ### Texts that a marker cannot begin or end in -/

theorem cons_infix_append_iff {c : Char} {rest tail : List Char} (hc : c ∉ before) :
    c :: rest <:+: before ++ tail ↔ c :: rest <:+: tail := by
  induction before with
  | nil => rfl
  | cons d before ih =>
    obtain ⟨hd, hbefore⟩ : c ≠ d ∧ c ∉ before := by simpa using hc
    rw [List.cons_append, List.infix_cons_iff, ih hbefore, List.cons_prefix_cons]
    simp [hd]

theorem append_singleton_infix_append_iff {c : Char} {front tail : List Char} (hc : c ∉ tail) :
    front ++ [c] <:+: before ++ tail ↔ front ++ [c] <:+: before := by
  have hreversed : c :: front.reverse <:+: tail.reverse ++ before.reverse ↔ c :: front.reverse <:+: before.reverse :=
    cons_infix_append_iff (by simpa using hc)
  rw [← List.reverse_infix, ← @List.reverse_infix _ _ before]
  simpa using hreversed

/-! ### Markers with a first character of their own -/

/-- The marker begins with this character and has it nowhere else. -/
def Headed (c : Char) (marker : List Char) : Prop :=
  ∃ rest, marker = c :: rest ∧ c ∉ rest

variable {c : Char} {tail : List Char}

private theorem Headed.prefix_of_prefix_append_cons {d : Char} (hmarker : Headed c marker)
    (h : marker <+: d :: (before ++ c :: tail)) : marker <+: d :: before := by
  obtain ⟨rest, rfl, hc⟩ := hmarker
  obtain ⟨rfl, hrest⟩ := List.cons_prefix_cons.1 h
  refine List.cons_prefix_cons.2 ⟨rfl, ?_⟩
  rcases List.prefix_or_prefix_of_prefix hrest (List.prefix_append before _) with h' | ⟨inner, rfl⟩
  · exact h'
  · -- An end of the marker behind `before` would hold its first character a second time.
    have hinner : inner <+: c :: tail := (List.prefix_append_right_inj before).1 hrest
    rcases List.prefix_cons_iff.1 hinner with rfl | ⟨inner, rfl, -⟩
    · simp
    · exact absurd (by simp) hc

/-- The marker is in one of two parts if its first character begins the second one. -/
theorem Headed.infix_append_cons_iff (hmarker : Headed c marker) :
    marker <:+: before ++ c :: tail ↔ marker <:+: before ∨ marker <:+: c :: tail := by
  constructor
  · intro h
    induction before with
    | nil => exact .inr h
    | cons d before ih =>
      rw [List.cons_append, List.infix_cons_iff] at h
      rcases h with hhere | hlater
      · exact .inl (hmarker.prefix_of_prefix_append_cons hhere).isInfix
      · exact (ih hlater).imp_left (List.infix_cons ·)
  · rintro (h | h)
    · exact h.trans (List.prefix_append _ _).isInfix
    · exact h.trans (List.suffix_append _ _).isInfix

/-- No occurrence begins where the first character of the marker is not. -/
theorem Headed.infix_append_iff_of_notMem (hmarker : Headed c marker) (hc : c ∉ before) :
    marker <:+: before ++ tail ↔ marker <:+: tail := by
  obtain ⟨rest, rfl, -⟩ := hmarker
  exact cons_infix_append_iff hc

/-- The text is cut where the marker was put. -/
theorem Headed.splitAt?_append (hmarker : Headed c marker) (hbefore : ¬ marker <:+: before) (after : List Char) :
    splitAt? marker (before ++ (marker ++ after)) = some (before, after) := by
  induction before with
  | nil =>
    obtain ⟨rest, rfl, -⟩ := hmarker
    have hstart : (c :: rest).isPrefixOf (c :: (rest ++ after)) = true :=
      List.isPrefixOf_iff_prefix.2 (List.prefix_append (c :: rest) after)
    rw [List.nil_append, List.cons_append, splitAt?, if_pos hstart]
    simp
  | cons d before ih =>
    have hlater : ¬ marker <:+: before := fun h => hbefore (List.infix_cons h)
    -- A marker that began here would end before the one that was put.
    have hstart : ¬ marker.isPrefixOf (d :: (before ++ (marker ++ after))) = true := by
      rw [List.isPrefixOf_iff_prefix]
      intro h
      have ⟨rest, hrest, _⟩ := hmarker
      rw [show marker ++ after = c :: (rest ++ after) by rw [hrest, List.cons_append]] at h
      exact hbefore (hmarker.prefix_of_prefix_append_cons h).isInfix
    rw [List.cons_append, splitAt?, if_neg hstart, ih hlater]
    rfl

end Phrasebook.Text
