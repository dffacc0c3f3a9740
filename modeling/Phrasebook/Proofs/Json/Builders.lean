import Phrasebook.Json.Reader
import Phrasebook.Proofs.Except
import Phrasebook.Proofs.Members

/-!
# Builders

The reader does the same whatever builder it drives: if a function turns what one builder makes into what another
makes, it turns what is read with the one into what is read with the other, and the faults are the same
(`Builder.Hom.read`).  Of numbers the function need only turn those that the reader can meet, integers of 64 bits and
doubles (`Number.Fits`).
-/

namespace Phrasebook.Json

variable {α β : Type}

/-! ### Taking values apart -/

theorem fold_array (b : Builder α) (items : List Json) : (array items).fold b = b.array (items.map (fold b)) := by
  have hitems : foldItems b items = items.map (fold b) := by
    induction items with
    | nil => rfl
    | cons item rest ih => rw [foldItems, ih, List.map_cons]
  rw [fold, hitems]

theorem fold_object (b : Builder α) (members : List (String × Json)) :
    (object members).fold b = b.object (members.map (Prod.map id (fold b))) := by
  have hmembers : foldMembers b members = members.map (Prod.map id (fold b)) := by
    induction members with
    | nil => rfl
    | cons first rest ih => rw [foldMembers, ih, List.map_cons, Prod.map, id]
  rw [fold, hmembers]

/-- A member of an object that was put in order; of several with one name the last counts. -/
theorem get?_fold_builder (members : List (String × Json)) (name : String) :
    ((object members).fold builder).get? name = (Members.get? members.reverse name).map (fold builder) := by
  have hget : ((object members).fold builder).get? name =
      Members.get? (Members.ofPairs (members.map (Prod.map id (fold builder)))) name := by
    rw [fold_object]
    rfl
  rw [hget, Members.get?_ofPairs, ← List.map_reverse, Members.get?_map]

/-! ### Numbers -/

/-- An integer fits into 64 bits, with a sign or without. -/
def Number.Fits : Number → Prop
  | integer n => -(1 <<< 63) ≤ n ∧ n < 1 <<< 64
  | float _ => True

private theorem fits_ofInteger (negative : Bool) (n : Nat) : (Number.ofInteger negative n).Fits := by
  unfold Number.ofInteger
  split
  · split
    · trivial
    · next h =>
      simp only [Number.Fits]
      omega
  · split
    · next h =>
      simp only [Number.Fits]
      omega
    · trivial

private theorem fits_of_finishFloat {negative : Bool} {d : Decimal} {text rest : List Char} {value : Number}
    (h : finishFloat negative d text = .ok (value, rest)) : value.Fits := by
  unfold finishFloat at h
  split at h
  · cases h
  · cases h
    trivial

private theorem fits_of_readNumberEnd {negative : Bool} {whole text rest : List Char} {value : Number}
    (h : readNumberEnd negative whole text = .ok (value, rest)) : value.Fits := by
  have hinteger {text : List Char} (h : readNumberEnd.finishInteger negative whole text = .ok (value, rest)) :
      value.Fits := by
    unfold readNumberEnd.finishInteger at h
    split at h
    · cases h
    · cases h
      exact fits_ofInteger negative _
  unfold readNumberEnd at h
  dsimp only at h
  split at h
  · exact hinteger h
  · split at h
    · obtain ⟨⟨fraction, rest⟩, -, h⟩ := Except.bind_eq_ok_iff.1 h
      dsimp only at h
      split at h
      · split at h
        · obtain ⟨⟨exponent, rest⟩, -, h⟩ := Except.bind_eq_ok_iff.1 h
          exact fits_of_finishFloat h
        · exact fits_of_finishFloat h
      · exact fits_of_finishFloat h
    · split at h
      · obtain ⟨⟨exponent, rest⟩, -, h⟩ := Except.bind_eq_ok_iff.1 h
        exact fits_of_finishFloat h
      · exact hinteger h

/-- Whatever number is read fits. -/
theorem fits_of_readNumber {negative : Bool} {text rest : List Char} {value : Number}
    (h : readNumber negative text = .ok (value, rest)) : value.Fits := by
  unfold readNumber at h
  split at h
  · cases h
  · split at h
    · exact fits_of_readNumberEnd h
    · split at h
      · cases h
      · exact fits_of_readNumberEnd h
  · split at h
    · exact fits_of_readNumberEnd h
    · cases h

/-! ### One reader for all builders -/

/-- The function turns what the one builder makes into what the other makes. -/
structure Builder.Hom (f : α → β) (b : Builder α) (c : Builder β) : Prop where
  null : f b.null = c.null
  bool : ∀ value, f (b.bool value) = c.bool value
  number : ∀ value, value.Fits → f (b.number value) = c.number value
  string : ∀ text, f (b.string text) = c.string text
  array : ∀ items, f (b.array items) = c.array (items.map f)
  object : ∀ members, f (b.object members) = c.object (members.map (Prod.map id f))

/-- What a step makes, turned by a function; the characters left are the same. -/
def Step.image (f : α → β) (step : Step α) : Step β :=
  step.map (Prod.map f id)

private theorem readWord_image (f : α → β) (value : α) (word text : List Char) :
    readWord (f value) word text = (readWord value word text).image f := by
  induction word generalizing text with
  | nil => rfl
  | cons expected word ih =>
    cases text with
    | nil => rfl
    | cons c rest =>
      simp only [readWord]
      split
      · exact ih rest
      · rfl

section
variable {f : α → β} {readPart : List Char → Step α} {readPart' : List Char → Step β}

private theorem readParts_image (h : ∀ text, readPart' text = (readPart text).image f) (e : Enclosure) (room : Nat)
    (text : List Char) :
    readParts e readPart' room text = (readParts e readPart room text).image (List.map f) := by
  induction room generalizing text with
  | zero => rfl
  | succ room ih =>
    simp only [readParts, h]
    cases readPart text with
    | error fault => rfl
    | ok part =>
      obtain ⟨value, rest⟩ := part
      simp only [Step.image, Except.map, Except.bind, Prod.map, id]
      cases skipSpace rest with
      | nil => rfl
      | cons c rest =>
        dsimp only
        split
        · rfl
        · split
          · cases skipSpace rest with
            | nil => rfl
            | cons c rest =>
              dsimp only
              split
              · rfl
              · rw [ih]
                cases readParts e readPart room (c :: rest) <;> rfl
          · rfl

private theorem readEnclosed_image (h : ∀ text, readPart' text = (readPart text).image f) (e : Enclosure)
    (text : List Char) : readEnclosed e readPart' text = (readEnclosed e readPart text).image (List.map f) := by
  unfold readEnclosed
  split
  · rfl
  · split
    · rfl
    · exact readParts_image h e _ _

private theorem readMember_image (h : ∀ text, readPart' text = (readPart text).image f) (text : List Char) :
    readMember readPart' text = (readMember readPart text).image (Prod.map id f) := by
  unfold readMember
  split
  · next rest =>
    cases readString [] rest with
    | error fault => rfl
    | ok name =>
      obtain ⟨name, rest⟩ := name
      simp only [Except.bind]
      split
      · rfl
      · next rest _ =>
        rw [h]
        cases readPart rest <;> rfl
      · rfl
  · rfl

end

namespace Builder.Hom

variable {f : α → β} {b : Builder α} {c : Builder β}

private theorem readNumber_image (hom : Hom f b c) (negative : Bool) (text : List Char) :
    (readNumber negative text).map (fun (value, rest) => (c.number value, rest)) =
      Step.image f ((readNumber negative text).map fun (value, rest) => (b.number value, rest)) := by
  cases hread : readNumber negative text with
  | error fault => rfl
  | ok number =>
    obtain ⟨value, rest⟩ := number
    simp only [Except.map, Step.image, Prod.map, id, hom.number value (fits_of_readNumber hread)]

private theorem readScalar_image (hom : Hom f b c) (text : List Char) :
    readScalar c text = (readScalar b text).image f := by
  unfold readScalar
  split
  · rfl
  · rw [← hom.null, readWord_image]
  · rw [← hom.bool, readWord_image]
  · rw [← hom.bool, readWord_image]
  · next rest =>
    cases readString [] rest with
    | error fault => rfl
    | ok text => simp only [Except.map, Step.image, Prod.map, id, hom.string]
  · exact hom.readNumber_image true _
  · split
    · exact hom.readNumber_image false _
    · rfl

/-- Induction on the depth that is left. -/
theorem readValue_image (hom : Hom f b c) (depth : Nat) (text : List Char) :
    readValue c depth text = (readValue b depth text).image f := by
  induction depth generalizing text with
  | zero =>
    unfold readValue
    split
    · rfl
    · rfl
    · exact hom.readScalar_image _
  | succ depth ih =>
    unfold readValue
    split
    · next rest _ =>
      rw [readEnclosed_image ih]
      cases readEnclosed .array (readValue b depth) rest with
      | error fault => rfl
      | ok items => simp only [Except.map, Step.image, Prod.map, id, hom.array]
    · next rest _ =>
      rw [readEnclosed_image (readMember_image ih)]
      cases readEnclosed .object (readMember (readValue b depth)) rest with
      | error fault => rfl
      | ok members => simp only [Except.map, Step.image, Prod.map, id, hom.object]
    · exact hom.readScalar_image _

/-- A text is read with the one builder as with the other. -/
theorem read (hom : Hom f b c) (depth : Nat) (text : String) :
    Json.read c depth text = (Json.read b depth text).map f := by
  unfold Json.read readText
  rw [hom.readValue_image]
  cases readValue b depth text.toList with
  | error fault => rfl
  | ok part =>
    obtain ⟨value, rest⟩ := part
    simp only [Except.map, Except.bind, Step.image, Prod.map, id]
    cases skipSpace rest <;> rfl

end Builder.Hom

end Phrasebook.Json
