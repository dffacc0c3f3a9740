import Phrasebook.Lint

/-!
# The rules of the search for cycles

`Follows` tells by rules what following the targets of a key does, one rule for each thing that can happen to a target,
and puts no bound on the length of paths.  The rules leave no choice (`Follows.unique`).  Each path holds a key of the
graph that was not visited before, so their number bounds the length of paths, and on every graph the rules come to an
end, which is what `searchFrom` answers (`follows_iff`).
-/

namespace Phrasebook

namespace Lint

/-- The targets of a key in a graph. -/
def successors (graph : Graph) (key : String) : List String :=
  (Members.get? graph key).getD []

/-- What following some targets from the end of a path makes of a search. -/
inductive Follows (graph : Graph) (start : String) : List String → List String → Search → Search → Prop
  | nil {path : List String} {search : Search} : Follows graph start path [] search search
  | closes {path rest : List String} {search after : Search}
      (hrest : Follows graph start path rest { search with found := (path ++ [start]) :: search.found } after) :
      Follows graph start path (start :: rest) search after
  | continues {path rest : List String} {target : String} {search inner after : Search}
      (hlt : start < target) (hnew : target ∉ search.visited)
      (hinner : Follows graph start (path ++ [target]) (successors graph target)
        { search with visited := target :: search.visited } inner)
      (hrest : Follows graph start path rest inner after) :
      Follows graph start path (target :: rest) search after
  | passes {path rest : List String} {target : String} {search after : Search}
      (hne : target ≠ start) (hpass : ¬ (start < target ∧ target ∉ search.visited))
      (hrest : Follows graph start path rest search after) :
      Follows graph start path (target :: rest) search after

variable {graph : Graph} {start : String} {path targets : List String} {search after : Search}

/-- No visited key is forgotten. -/
theorem Follows.visited_subset (h : Follows graph start path targets search after) :
    search.visited ⊆ after.visited := by
  induction h with
  | nil => exact List.Subset.refl _
  | closes _ ih => exact ih
  | continues _ _ _ _ ihinner ihrest =>
    exact List.Subset.trans (List.Subset.trans (List.subset_cons_self _ _) ihinner) ihrest
  | passes _ _ _ ih => exact ih

theorem Follows.unique (h : Follows graph start path targets search after) :
    ∀ other, Follows graph start path targets search other → other = after := by
  induction h with
  | nil =>
    intro other hother
    cases hother
    rfl
  | closes _ ih =>
    intro other hother
    cases hother with
    | closes hrest => exact ih other hrest
    | continues hlt => exact absurd hlt (String.lt_irrefl _)
    | passes hne => exact absurd rfl hne
  | continues hlt hnew _ _ ihinner ihrest =>
    intro other hother
    cases hother with
    | closes => exact absurd hlt (String.lt_irrefl _)
    | continues _ _ hinner hrest =>
      obtain rfl := ihinner _ hinner
      exact ihrest other hrest
    | passes _ hpass => exact absurd ⟨hlt, hnew⟩ hpass
  | passes hne hpass _ ih =>
    intro other hother
    cases hother with
    | closes => exact absurd rfl hne
    | continues hlt hnew => exact absurd ⟨hlt, hnew⟩ hpass
    | passes _ _ hrest => exact ih other hrest

/-! ### Room for the paths -/

/-- How many keys of the graph are not visited yet. -/
private def unvisited (graph : Graph) (search : Search) : Nat :=
  graph.countP fun entry => decide (entry.1 ∉ search.visited)

private theorem unvisited_mono (graph : Graph) {search after : Search} (h : search.visited ⊆ after.visited) :
    unvisited graph after ≤ unvisited graph search := by
  apply List.countP_mono_left
  intro entry _ hentry
  simp only [decide_eq_true_eq] at hentry ⊢
  exact fun hmem => hentry (h hmem)

private theorem unvisited_lt {key : String} (h : search.visited ⊆ after.visited) (hkey : key ∉ search.visited)
    (hafter : key ∈ after.visited) (hgraph : (Members.get? graph key).isSome) :
    unvisited graph after < unvisited graph search := by
  unfold Members.get? at hgraph
  induction graph with
  | nil => cases hgraph
  | cons entry graph ih =>
    have hmono := unvisited_mono graph h
    unfold unvisited at hmono ih ⊢
    rw [List.countP_cons, List.countP_cons]
    by_cases hentry : entry.1 = key
    · have hold : entry.1 ∉ search.visited := hentry ▸ hkey
      have hnew : entry.1 ∈ after.visited := hentry ▸ hafter
      simp only [hold, hnew, not_true_eq_false, not_false_eq_true, decide_true, decide_false, Bool.false_eq_true,
        ↓reduceIte]
      omega
    · have hlt := ih (by simpa [List.lookup_cons, Ne.symm hentry] using hgraph)
      by_cases hnew : entry.1 ∈ after.visited
      · simp only [hnew, not_true_eq_false, decide_false, Bool.false_eq_true, ↓reduceIte]
        omega
      · have hold : entry.1 ∉ search.visited := fun hold => hnew (h hold)
        simp only [hold, hnew, not_false_eq_true, decide_true, ↓reduceIte]
        omega

/-- Following targets with enough room for longer paths. -/
private theorem follows_followTargets {follow : List String → Search → Search} {room : Nat}
    (hfollow : ∀ (path : List String) (key : String) (search : Search), path.getLast? = some key →
      Members.get? graph key = none ∨ unvisited graph search < room →
      Follows graph start path (successors graph key) search (follow path search))
    (path targets : List String) (search : Search) (hroom : unvisited graph search ≤ room) :
    Follows graph start path targets search (followTargets follow start path targets search) := by
  induction targets generalizing search with
  | nil => exact .nil
  | cons target rest ih =>
    unfold followTargets
    by_cases hstart : target = start
    · subst hstart
      rw [if_pos rfl]
      exact .closes (ih _ hroom)
    · rw [if_neg hstart]
      by_cases hfresh : start < target ∧ target ∉ search.visited
      · rw [if_pos (by simpa using hfresh)]
        let entered : Search := { search with visited := target :: search.visited }
        have hinner : Follows graph start (path ++ [target]) (successors graph target) entered
            (follow (path ++ [target]) entered) := by
          refine hfollow _ target entered List.getLast?_concat ?_
          cases hget : Members.get? graph target with
          | none => exact .inl rfl
          | some _ =>
            have hlt : unvisited graph entered < unvisited graph search :=
              unvisited_lt (List.subset_cons_self _ _) hfresh.2 List.mem_cons_self (by rw [hget]; rfl)
            exact .inr (by omega)
        refine .continues hfresh.1 hfresh.2 hinner (ih _ ?_)
        have hgrown : search.visited ⊆ (follow (path ++ [target]) entered).visited :=
          List.Subset.trans (List.subset_cons_self target search.visited) hinner.visited_subset
        have hle := unvisited_mono graph hgrown
        omega
      · rw [if_neg (by simpa using hfresh)]
        exact .passes hstart hfresh (ih _ hroom)

private theorem searchFrom_of_get?_none {key : String} (room : Nat) (search : Search) (hlast : path.getLast? = some key)
    (h : Members.get? graph key = none) : searchFrom graph start (room + 1) path search = search := by
  unfold searchFrom
  rw [hlast, Option.bind_some, h]

private theorem searchFrom_of_get? {key : String} (room : Nat) (search : Search) (hlast : path.getLast? = some key)
    (h : Members.get? graph key = some targets) :
    searchFrom graph start (room + 1) path search =
      followTargets (searchFrom graph start room) start path targets search := by
  conv => lhs; unfold searchFrom
  rw [hlast, Option.bind_some, h]

private theorem follows_searchFrom (graph : Graph) (start : String) (room : Nat) (path : List String) (key : String)
    (search : Search) (hlast : path.getLast? = some key)
    (hroom : Members.get? graph key = none ∨ unvisited graph search < room) :
    Follows graph start path (successors graph key) search (searchFrom graph start room path search) := by
  induction room generalizing path key search with
  | zero =>
    have hget : Members.get? graph key = none := hroom.resolve_right (Nat.not_lt_zero _)
    have hsuccessors : successors graph key = [] := by
      unfold successors
      rw [hget]
      rfl
    rw [hsuccessors]
    exact .nil
  | succ room ih =>
    unfold successors
    cases hget : Members.get? graph key with
    | none =>
      rw [searchFrom_of_get?_none room search hlast hget]
      exact .nil
    | some targets =>
      rw [searchFrom_of_get? room search hlast hget]
      refine follows_followTargets ih path targets search ?_
      rcases hroom with hroom | hroom
      · rw [hget] at hroom
        cases hroom
      · omega

/-- The search from a key comes to an end, with one result. -/
theorem follows_iff {graph : Graph} {start : String} {after : Search} :
    Follows graph start [start] (successors graph start) {} after ↔
      after = searchFrom graph start (graph.length + 1) [start] {} := by
  have hroom : unvisited graph {} < graph.length + 1 := Nat.lt_succ_of_le List.countP_le_length
  have hends := follows_searchFrom graph start _ [start] start {} rfl (.inr hroom)
  constructor
  · exact hends.unique after
  · rintro rfl
    exact hends

end Lint

end Phrasebook
