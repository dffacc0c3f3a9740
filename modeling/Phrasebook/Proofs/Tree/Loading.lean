import Phrasebook.Proofs.Json.Builders
import Phrasebook.Proofs.Members
import Phrasebook.Tree

/-!
# Loading trees

A tree read from JSON text is the tree made of the JSON value of that text, whether the value is taken apart with the
builder of trees or converted by itself (`loading_agrees`).
-/

namespace Phrasebook.Tree

private theorem numberText_of_signed {value : Json.Number} {n : Int} (h : value.signed? = some n) :
    numberText value = n.repr := by
  simp [numberText, h]

private theorem numberText_of_unsigned {value : Json.Number} {n : Nat} (hsigned : value.signed? = none)
    (h : value.unsigned? = some n) : numberText value = n.repr := by
  simp [numberText, hsigned, h]

/-- A number that fits is converted to the text that the builder gives it: an integer has one of the two views, and
both write it the same way. -/
private theorem numberText_of_fits {value : Json.Number} (h : value.Fits) :
    numberText value = String.ofList value.text := by
  cases value with
  | integer n =>
    obtain ⟨hlow, hhigh⟩ := h
    by_cases hsigned : n < 1 <<< 63
    · have hview : (Json.Number.integer n).signed? = some n := by rw [Json.Number.signed?, if_pos ⟨hlow, hsigned⟩]
      rw [numberText_of_signed hview, Json.Number.text, String.ofList_toList]
    · -- Beyond the integers with a sign only those without one are left.
      have hview : (Json.Number.integer n).signed? = none := by
        rw [Json.Number.signed?, if_neg fun h => hsigned h.2]
      obtain ⟨m, rfl⟩ := Int.eq_ofNat_of_zero_le (show 0 ≤ n by omega)
      have hview' : (Json.Number.integer m).unsigned? = some m := by
        rw [Json.Number.unsigned?, if_pos ⟨Int.natCast_nonneg m, hhigh⟩, Int.toNat_natCast]
      rw [numberText_of_unsigned hview hview', Json.Number.text, String.ofList_toList]
      rfl
  | float x => simp [numberText, Json.Number.signed?, Json.Number.unsigned?, Json.Number.toBinary64, Json.Number.text]

private theorem convert_array (items : List Json) : convert (.array items) = array (items.map convert) := by
  have hitems : convertItems items = items.map convert := by
    induction items with
    | nil => rfl
    | cons item rest ih => rw [convertItems, ih, List.map_cons]
  rw [convert, hitems]

private theorem convert_object (members : List (String × Json)) :
    convert (.object members) = object (Members.ofPairs (members.map (Prod.map id convert))) := by
  have hmembers : convertMembers members = members.map (Prod.map id convert) := by
    induction members with
    | nil => rfl
    | cons first rest ih => rw [convertMembers, ih, List.map_cons, Prod.map, id]
  rw [convert, hmembers]

/-- Members that are in order already, as those of a value that was read, are put in order again. -/
private theorem ofPairs_map_ofPairs (f : Json → Tree) (members : List (String × Json)) :
    Members.ofPairs ((Members.ofPairs members).map (Prod.map id f)) =
      Members.ofPairs (members.map (Prod.map id f)) := by
  rw [← Members.ofPairs_map, Members.ofPairs_of_ascending (Members.ascending_ofPairs _)]

private theorem hom_convert : Json.Builder.Hom convert Json.builder builder where
  null := rfl
  bool _ := rfl
  number value h := congrArg scalar (numberText_of_fits h)
  string _ := rfl
  array items := convert_array items
  object members := by
    show convert (.object (Members.ofPairs members)) = _
    rw [convert_object, ofPairs_map_ofPairs]
    rfl

private theorem hom_ofJson : Json.Builder.Hom ofJson Json.builder builder where
  null := rfl
  bool _ := rfl
  number _ _ := rfl
  string _ := rfl
  array items := Json.fold_array builder items
  object members := by
    show Json.fold builder (.object (Members.ofPairs members)) = _
    rw [Json.fold_object]
    exact congrArg object (ofPairs_map_ofPairs ofJson members)

theorem ordered_of_load {text : String} {tree : Tree} (h : load text = .ok tree) : tree.Ordered := by
  unfold load at h
  rw [hom_ofJson.read] at h
  obtain ⟨value, -, rfl⟩ := Except.map_eq_ok_iff.1 (Except.mapError_eq_ok_iff.1 h)
  exact ordered_ofJson value

/-- A text is a tree exactly if it is a JSON value, and then the tree is the one that the value is converted to and the
one that the builder of trees makes of the value.  A text that is no tree has the fault that it has as a value. -/
theorem loading_agrees (text : String) :
    ((∃ tree, load text = .ok tree) ↔ ∃ value, Json.parse text = .ok value) ∧
      (∀ value, Json.parse text = .ok value → load text = .ok (convert value) ∧ load text = .ok (ofJson value)) ∧
        ∀ error, load text = .error error ↔ Json.parse text = .error error.source := by
  have hload {make : Json → Tree} (hom : Json.Builder.Hom make Json.builder builder) :
      load text = ((Json.parse text).map make).mapError .mk := by
    unfold load Json.parse
    rw [hom.read]
  have hconvert := hload hom_convert
  refine ⟨?_, fun value hvalue => ⟨?_, ?_⟩, fun error => ?_⟩
  · simp only [hconvert, Except.mapError_eq_ok_iff, Except.map_eq_ok_iff]
    constructor
    · rintro ⟨-, value, hvalue, -⟩
      exact ⟨value, hvalue⟩
    · rintro ⟨value, hvalue⟩
      exact ⟨_, value, hvalue, rfl⟩
  · rw [hconvert, hvalue]
    rfl
  · rw [hload hom_ofJson, hvalue]
    rfl
  · rw [hconvert]
    obtain ⟨source⟩ := error
    simp

theorem loading_agrees_at_bounds :
    let text := "\x7b\"b\": true, \"a\": [-0, 18446744073709551615, null], \"b\": -9223372036854775808\x7d"
    let value : Json := .object
      [("a", .array [.number (.float (.finite true 0 (-1074))), .number (.integer 18446744073709551615), .null]),
        ("b", .number (.integer (-9223372036854775808)))]
    Json.parse text = .ok value ∧ load text = .ok (convert value) ∧ load text = .ok (ofJson value) :=
  ⟨rfl, (loading_agrees _).2.1 _ rfl⟩

end Phrasebook.Tree
