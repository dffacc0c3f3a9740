/-!
# Named members in ascending order

An object keeps its members as a list of pairs, ascending by name in the order of code points, so that each name
occurs once.  `Members.insert` keeps that order (`ascending_insert`), hence `Members.ofPairs` makes it.  Of several
pairs with one name the last counts (`get?_ofPairs`).
-/

namespace Phrasebook.Members

variable {α : Type}

/-- The names ascend strictly. -/
def Ascending (members : List (String × α)) : Prop :=
  members.Pairwise fun a b => a.1 < b.1

/-- Puts a member in its place, replacing one of the same name. -/
def insert (name : String) (value : α) : List (String × α) → List (String × α)
  | [] => [(name, value)]
  | (key, old) :: rest =>
    if name < key then (name, value) :: (key, old) :: rest
    else if name = key then (name, value) :: rest
    else (key, old) :: insert name value rest

/-- The pairs in order of name; of several pairs with one name the last counts. -/
def ofPairs (pairs : List (String × α)) : List (String × α) :=
  pairs.foldl (fun members pair => insert pair.1 pair.2 members) []

/-- The value of a name. -/
def get? (members : List (String × α)) (name : String) : Option α :=
  members.lookup name

/-- What is in a list after an insertion is the new member or was there before. -/
theorem eq_or_mem_of_mem_insert {name : String} {value : α} {members : List (String × α)} {pair : String × α}
    (h : pair ∈ insert name value members) : pair = (name, value) ∨ pair ∈ members := by
  induction members with
  | nil => simp_all [insert]
  | cons first rest ih =>
    obtain ⟨key, old⟩ := first
    rw [insert] at h
    split at h
    · exact List.mem_cons.1 h
    · split at h
      · exact (List.mem_cons.1 h).imp_right (List.mem_cons_of_mem _)
      · rcases List.mem_cons.1 h with rfl | h
        · exact .inr List.mem_cons_self
        · exact (ih h).imp_right (List.mem_cons_of_mem _)

/-- Inserting keeps the order. -/
theorem ascending_insert (name : String) (value : α) {members : List (String × α)} (h : Ascending members) :
    Ascending (insert name value members) := by
  induction members with
  | nil => simp [insert, Ascending]
  | cons first rest ih =>
    obtain ⟨key, old⟩ := first
    obtain ⟨hkey, hrest⟩ := List.pairwise_cons.1 h
    rw [insert]
    split
    · next hlt =>
      refine List.pairwise_cons.2 ⟨fun pair hpair => ?_, h⟩
      rcases List.mem_cons.1 hpair with rfl | hpair
      · exact hlt
      · exact String.lt_trans hlt (hkey pair hpair)
    · split
      · next heq => exact List.pairwise_cons.2 ⟨fun pair hpair => heq ▸ hkey pair hpair, hrest⟩
      · next hlt hne =>
        refine List.pairwise_cons.2 ⟨fun pair hpair => ?_, ih hrest⟩
        rcases eq_or_mem_of_mem_insert hpair with rfl | hpair
        · have hle : key ≤ name := String.not_lt.1 hlt
          exact String.not_le.1 fun hge => hne (String.le_antisymm hge hle)
        · exact hkey pair hpair

/-- The members made of pairs are among them. -/
theorem mem_of_mem_ofPairs {pairs : List (String × α)} {pair : String × α} (h : pair ∈ ofPairs pairs) :
    pair ∈ pairs := by
  have step : ∀ (ps members : List (String × α)),
      pair ∈ ps.foldl (fun members pair => insert pair.1 pair.2 members) members → pair ∈ members ∨ pair ∈ ps := by
    intro ps
    induction ps with
    | nil => exact fun _ h => .inl h
    | cons p ps ih =>
      intro members h
      rcases ih _ h with h | h
      · exact (eq_or_mem_of_mem_insert h).elim (fun h => .inr (h ▸ List.mem_cons_self)) .inl
      · exact .inr (List.mem_cons_of_mem _ h)
  simpa using step pairs [] h

/-- The members made of pairs are in order. -/
theorem ascending_ofPairs (pairs : List (String × α)) : Ascending (ofPairs pairs) := by
  have step : ∀ (ps : List (String × α)) (members : List (String × α)), Ascending members →
      Ascending (ps.foldl (fun members pair => insert pair.1 pair.2 members) members) := by
    intro ps
    induction ps with
    | nil => exact fun _ h => h
    | cons pair ps ih => exact fun _ h => ih _ (ascending_insert _ _ h)
  exact step pairs [] List.Pairwise.nil

theorem get?_cons_self (name : String) (value : α) (rest : List (String × α)) :
    get? ((name, value) :: rest) name = some value := by
  simp [get?]

theorem get?_cons_of_ne {name key : String} (h : key ≠ name) (value : α) (rest : List (String × α)) :
    get? ((name, value) :: rest) key = get? rest key := by
  unfold get?
  rw [List.lookup_cons, beq_eq_false_iff_ne.2 h]

theorem get?_insert (name key : String) (value : α) (members : List (String × α)) :
    get? (insert name value members) key = if key = name then some value else get? members key := by
  induction members with
  | nil =>
    by_cases hkey : key = name
    · rw [if_pos hkey, hkey]
      exact get?_cons_self name value []
    · rw [if_neg hkey]
      exact get?_cons_of_ne hkey value []
  | cons first rest ih =>
    obtain ⟨other, old⟩ := first
    rw [insert]
    by_cases hkey : key = name
    · subst hkey
      rw [if_pos rfl] at ih ⊢
      split
      · rw [get?_cons_self]
      · split
        · rw [get?_cons_self]
        · next hne => rw [get?_cons_of_ne hne, ih]
    · rw [if_neg hkey] at ih ⊢
      split
      · rw [get?_cons_of_ne hkey]
      · split
        · next heq => rw [get?_cons_of_ne hkey, get?_cons_of_ne (heq ▸ hkey)]
        · by_cases hother : key = other
          · rw [hother, get?_cons_self, get?_cons_self]
          · rw [get?_cons_of_ne hother, get?_cons_of_ne hother, ih]

/-- Of several pairs with one name the last counts. -/
theorem get?_ofPairs (pairs : List (String × α)) (key : String) :
    get? (ofPairs pairs) key = get? pairs.reverse key := by
  unfold ofPairs
  rw [List.foldl_eq_foldr_reverse]
  induction pairs.reverse with
  | nil => rfl
  | cons first rest ih =>
    obtain ⟨name, value⟩ := first
    rw [List.foldr_cons, get?_insert, ih]
    by_cases hkey : key = name
    · rw [if_pos hkey, hkey, get?_cons_self]
    · rw [if_neg hkey, get?_cons_of_ne hkey]

end Phrasebook.Members
