import Phrasebook.Members

/-!
# Members that are in order already

Members that ascend are kept as they are (`ofPairs_of_ascending`) and found by their names (`get?_of_mem`).  Putting
members in order does not look at their values (`ofPairs_map`).
-/

namespace Phrasebook.Members

variable {α β : Type}

private theorem insert_of_forall_lt {name : String} {members : List (String × α)}
    (h : ∀ pair ∈ members, pair.1 < name) (value : α) : insert name value members = members ++ [(name, value)] := by
  induction members with
  | nil => rfl
  | cons first rest ih =>
    obtain ⟨key, old⟩ := first
    obtain ⟨hkey, hrest⟩ := List.forall_mem_cons.1 h
    have hlt : ¬ name < key := fun hlt => String.lt_irrefl key (String.lt_trans hkey hlt)
    have hne : name ≠ key := fun heq => String.lt_irrefl key (heq ▸ hkey)
    rw [insert, if_neg hlt, if_neg hne, ih hrest, List.cons_append]

/-- Members in order stay as they are. -/
theorem ofPairs_of_ascending {pairs : List (String × α)} (h : Ascending pairs) : ofPairs pairs = pairs := by
  have step : ∀ ps members : List (String × α), Ascending (members ++ ps) →
      ps.foldl (fun members pair => insert pair.1 pair.2 members) members = members ++ ps := by
    intro ps
    induction ps with
    | nil => simp
    | cons first ps ih =>
      intro members h
      have hlast : ∀ pair ∈ members, pair.1 < first.1 := fun pair hpair =>
        (List.pairwise_append.1 h).2.2 pair hpair first List.mem_cons_self
      rw [List.foldl_cons, insert_of_forall_lt hlast, ih _ (by simpa using h), List.append_assoc,
        List.singleton_append]
  exact step pairs [] h

private theorem insert_map (f : α → β) (name : String) (value : α) (members : List (String × α)) :
    (insert name value members).map (Prod.map id f) = insert name (f value) (members.map (Prod.map id f)) := by
  induction members with
  | nil => rfl
  | cons first rest ih =>
    obtain ⟨key, old⟩ := first
    simp only [List.map_cons, Prod.map, id, insert]
    split
    · rfl
    · split
      · rfl
      · rw [List.map_cons, ih]
        rfl

/-- The place of a member depends on its name only. -/
theorem ofPairs_map (f : α → β) (pairs : List (String × α)) :
    ofPairs (pairs.map (Prod.map id f)) = (ofPairs pairs).map (Prod.map id f) := by
  unfold ofPairs
  rw [List.foldl_eq_foldr_reverse, List.foldl_eq_foldr_reverse, ← List.map_reverse]
  induction pairs.reverse with
  | nil => rfl
  | cons first rest ih => rw [List.map_cons, List.foldr_cons, List.foldr_cons, insert_map, ih, Prod.map, id]

/-- Of members in order each is found by its name. -/
theorem get?_of_mem {members : List (String × α)} (h : Ascending members) {pair : String × α} (hpair : pair ∈ members) :
    get? members pair.1 = some pair.2 := by
  induction members with
  | nil => cases hpair
  | cons first rest ih =>
    obtain ⟨key, value⟩ := first
    obtain ⟨hkey, hrest⟩ := List.pairwise_cons.1 h
    rcases List.mem_cons.1 hpair with rfl | hpair
    · exact get?_cons_self _ _ rest
    · have hne : pair.1 ≠ key := fun heq => String.lt_irrefl key (heq ▸ hkey pair hpair)
      rw [get?_cons_of_ne hne, ih hrest hpair]

/-- A member is found by its name, whatever becomes of its value. -/
theorem get?_map (f : α → β) (members : List (String × α)) (name : String) :
    get? (members.map (Prod.map id f)) name = (get? members name).map f := by
  induction members with
  | nil => rfl
  | cons first rest ih =>
    obtain ⟨key, value⟩ := first
    rw [List.map_cons, Prod.map, id]
    by_cases hkey : name = key
    · rw [hkey, get?_cons_self, get?_cons_self, Option.map_some]
    · rw [get?_cons_of_ne hkey, get?_cons_of_ne hkey, ih]

theorem mem_map_fst_iff {members : List (String × α)} {name : String} :
    name ∈ members.map Prod.fst ↔ (get? members name).isSome := by
  unfold get?
  rw [List.lookup_isSome_iff, List.mem_map]
  refine exists_congr fun pair => and_congr_right fun _ => ?_
  rw [beq_iff_eq]
  exact eq_comm

/-- Putting members in order keeps their names. -/
theorem mem_map_fst_ofPairs_iff {pairs : List (String × α)} {name : String} :
    name ∈ (ofPairs pairs).map Prod.fst ↔ name ∈ pairs.map Prod.fst := by
  rw [mem_map_fst_iff, get?_ofPairs, ← mem_map_fst_iff, List.map_reverse, List.mem_reverse]

end Phrasebook.Members
